import SceneScript.Proofs.Script.Refusal

/-!
# Proofs — Script — the counters of a reading

A `Normalizer` starts afresh on each script, so what it gives and the counters it is left with are
those of the script alone, whatever it read before (`counters_exact`).

Of the lines that are left once comments are out, each that says something is counted once, up to
the end or to the line that is refused: it gives a statement, or no marker makes it one and it is
ignored (`counters_of_ok`, `readRows_append`).  There are no more of them than lines in the
script: a comment takes the line feeds inside it away and never adds one, so taking comments out can
only join lines (`length_lines_residue_le`).
-/

namespace SceneScript

open Text

namespace Line

/-- No marker makes the line a statement. -/
def isUnmarked (line : List Char) : Bool :=
  !holds constructMark (head (pad line)) && !holds invokeMark (head (pad line))

theorem read_eq_none {line : List Char} : read line = .ok none ↔ isUnmarked line := by
  rw [isUnmarked, read]
  split
  · next hc => simp [hc, map_eq_ok]
  · split
    · next hi => simp [hi, map_eq_ok]
    · next hc hi => simp [hc, hi]

end Line

namespace Script

/-- The line is not blank. -/
def isSaid (l : List Char) : Bool :=
  !(trim l).isEmpty

/-- The line is not blank, but it says no statement. -/
def isIgnored (l : List Char) : Bool :=
  isSaid l && Line.isUnmarked (trim l)

/-! ### Counting lines -/

section Reading

variable {s : Stripped} {p : Progress} {rs : List Row}

theorem sourceLines_readRows (s : Stripped) (p : Progress) (rs : List Row) :
    (readRows s p rs).2.counters.sourceLines = p.counters.sourceLines := by
  induction rs generalizing p with
  | nil => rfl
  | cons r rs ih =>
      rcases readRows_cons s p r rs with ⟨st, -, e⟩ | ⟨-, e⟩ | ⟨reason, -, e⟩
      · rw [e]
        exact ih (p.accept st)
      · rw [e]
        exact ih (p.ignore r.text)
      · rw [e]
        rfl

/-- **Each line of a reading that succeeds is counted once**, as it is read or at the end. -/
theorem counters_of_ok {S : List Statement} (h : (readRows s p rs).1 = .ok S) :
    (readRows s p rs).2.counters.statements = S.length ∧
    S.length + (readRows s p rs).2.counters.ignored =
      p.statements.size + p.counters.ignored + rs.length := by
  induction rs generalizing p with
  | nil =>
      cases h
      exact ⟨rfl, rfl⟩
  | cons r rs ih =>
      rw [List.length_cons]
      rcases readRows_cons s p r rs with ⟨st, -, e⟩ | ⟨-, e⟩ | ⟨reason, -, e⟩ <;> rw [e] at h ⊢
      · obtain ⟨hs, hi⟩ := ih h
        refine ⟨hs, hi.trans ?_⟩
        rw [Progress.statements_accept, Progress.counters_accept, Array.size_push]
        omega
      · obtain ⟨hs, hi⟩ := ih h
        refine ⟨hs, hi.trans ?_⟩
        rw [Progress.statements_ignore, Progress.ignored_ignore]
        omega
      · cases h

/-- **A reading that fails counts no statement**, and fewer ignored lines than there are lines. -/
theorem counters_of_error {e : SyntaxError} (h : (readRows s p rs).1 = .error e) :
    (readRows s p rs).2.counters.statements = p.counters.statements ∧
    (readRows s p rs).2.counters.ignored < p.counters.ignored + rs.length := by
  induction rs generalizing p with
  | nil => cases h
  | cons r rs ih =>
      rw [List.length_cons]
      rcases readRows_cons s p r rs with ⟨st, -, e⟩ | ⟨-, e⟩ | ⟨reason, -, e⟩ <;> rw [e] at h ⊢
      · obtain ⟨hs, hi⟩ := ih h
        exact ⟨hs, Nat.lt_succ_of_lt hi⟩
      · obtain ⟨hs, hi⟩ := ih h
        refine ⟨hs, Nat.lt_of_lt_of_le hi ?_⟩
        rw [Progress.ignored_ignore]
        omega
      · exact ⟨rfl, Nat.lt_add_of_pos_right (Nat.zero_lt_succ _)⟩

theorem isSaid_iff {l : List Char} : isSaid l ↔ trim l ≠ [] := by
  simp [isSaid]

theorem isIgnored_iff {l : List Char} (hs : isSaid l) :
    isIgnored l ↔ Line.read (trim l) = .ok none := by
  rw [isIgnored, hs, Bool.true_and, Line.read_eq_none]

theorem rows_cons_of_isSaid {l : List Char} (h : isSaid l) (offset : Nat) (ls : List (List Char)) :
    rows offset (l :: ls) = ⟨offset + byteLength (l.takeWhile isBlank), trim l⟩ ::
      rows (offset + byteLength l + 1) ls := by
  rw [rows, if_neg (by simpa [isSaid] using h)]

theorem rows_cons_of_not_isSaid {l : List Char} (h : ¬ isSaid l) (offset : Nat)
    (ls : List (List Char)) : rows offset (l :: ls) = rows (offset + byteLength l + 1) ls := by
  rw [rows, if_pos (by simpa [isSaid] using h)]

theorem length_rows (offset : Nat) (ls : List (List Char)) :
    (rows offset ls).length = ls.countP isSaid := by
  induction ls generalizing offset with
  | nil => rfl
  | cons l ls ih =>
      by_cases hl : isSaid l
      · rw [rows_cons_of_isSaid hl, List.countP_cons_of_pos hl, List.length_cons, ih]
      · rw [rows_cons_of_not_isSaid hl, List.countP_cons_of_neg hl, ih]

/-- **Lines that are not refused are ignored or say something**, and the reading goes on after
them. -/
theorem readRows_append {before : List (List Char)} (hb : ∀ l ∈ before, ¬ Refused l) (offset : Nat)
    (ls : List (List Char)) :
    ∃ offset' p', readRows s p (rows offset (before ++ ls)) = readRows s p' (rows offset' ls) ∧
      p'.counters.ignored = p.counters.ignored + before.countP isIgnored := by
  induction before generalizing p offset with
  | nil => exact ⟨offset, p, rfl, rfl⟩
  | cons l before ih =>
      obtain ⟨hl, hb⟩ := List.forall_mem_cons.mp hb
      rw [List.cons_append]
      by_cases hs : isSaid l
      · rw [rows_cons_of_isSaid hs]
        rcases readRows_cons s p ⟨_, trim l⟩ (rows _ (before ++ ls)) with
          ⟨st, hr, e⟩ | ⟨hr, e⟩ | ⟨reason, hr, -⟩
        · have hu : ¬ isIgnored l := by
            rw [isIgnored_iff hs, hr]
            exact nofun
          rw [e, List.countP_cons_of_neg hu]
          exact ih hb _
        · have hu : isIgnored l := (isIgnored_iff hs).mpr hr
          obtain ⟨offset', p', e', hi⟩ := ih (p := p.ignore (trim l)) hb (offset + byteLength l + 1)
          refine ⟨offset', p', e.trans e', hi.trans ?_⟩
          rw [Progress.ignored_ignore, List.countP_cons_of_pos hu]
          omega
        · exact absurd ⟨isSaid_iff.mp hs, reason, hr⟩ hl
      · have hu : ¬ isIgnored l := by simp [isIgnored, hs]
        rw [rows_cons_of_not_isSaid hs, List.countP_cons_of_neg hu]
        exact ih hb _

/-- **A reading that fails has counted the ignored lines before the refused one.** -/
theorem ignored_of_refused {before after : List (List Char)} {l : List Char}
    (hb : ∀ l ∈ before, ¬ Refused l) (hl : Refused l) (offset : Nat) :
    (readRows s p (rows offset (before ++ l :: after))).2.counters.ignored =
      p.counters.ignored + before.countP isIgnored := by
  obtain ⟨offset', p', e, hi⟩ := readRows_append (s := s) (p := p) hb offset (l :: after)
  obtain ⟨hs, reason, hr⟩ := hl
  rw [e, rows_cons_of_isSaid (isSaid_iff.mpr hs), readRows, hr, ← hi]
  rfl

end Reading

/-! ### Counting the lines of the script -/

/-- A line that says something is a line, also where no line feed ends it. -/
theorem countP_isSaid_le_lines (s : List Char) :
    (s.splitOn '\n').countP isSaid ≤ (lines s).length := by
  rw [lines]
  generalize s.splitOn '\n' = ls
  fun_induction closeLines ls with
  | case1 => exact Nat.le_refl 0
  | case2 l he => rw [List.isEmpty_iff.mp he]; exact Nat.le_refl 0
  | case3 l he => exact List.countP_le_length
  | case4 l ls hls ih =>
      rw [List.countP_cons, List.length_cons]
      split <;> omega

/-- **Taking comments out can only join lines.** -/
theorem length_lines_residue_le (ps : List Piece) :
    (lines (ps.flatMap Piece.residue)).length ≤ (lines (ps.flatMap Piece.source)).length := by
  induction ps with
  | nil => exact Nat.le_refl _
  | cons p ps ih =>
      rw [List.flatMap_cons, List.flatMap_cons]
      cases p with
      | kept run => exact length_lines_append_le ih run
      | line body => exact Nat.le_trans ih (length_lines_le_append _ _)
      | block body =>
          have h := Nat.le_trans ih (length_lines_le_append ('*' :: (body ++ ['*', '/'])) _)
          rw [Piece.residue, Piece.source, List.singleton_append, List.cons_append,
            length_lines_cons (by decide), length_lines_cons (by decide)]
          omega

theorem countP_isSaid_le (source : String) :
    ((strip source).residue.splitOn '\n').countP isSaid ≤ (lines source.toList).length := by
  refine Nat.le_trans (countP_isSaid_le_lines _) ?_
  have h := length_lines_residue_le (pieces source.toList)
  rwa [flatMap_source_pieces, ← residue_strip] at h

end Script

open Script

/-! ### One reading after another -/

/-- Reads scripts one after another: what each of them gives, and the counters left after it. -/
def Normalizer.runAll :
    Normalizer → List String → List (Logged (Except SyntaxError (List Statement)) × Counters)
  | _, []                => []
  | n, source :: sources =>
    ((n.run source).1, (n.run source).2.counters) :: (n.run source).2.runAll sources

/-- A run leaves no trace in the next one. -/
theorem Normalizer.runAll_eq_map (n : Normalizer) (sources : List String) :
    n.runAll sources = sources.map fun source =>
      ((({} : Normalizer).run source).1, (({} : Normalizer).run source).2.counters) := by
  induction sources generalizing n with
  | nil => rfl
  | cons source sources ih => rw [runAll, List.map_cons, ih]; rfl

/-- The counters `c` of a reading of `source`, and what it gave. -/
structure Counted (source : String) (result : Except SyntaxError (List Statement)) (c : Counters) :
    Prop where
  sourceLines : c.sourceLines = (lines source.toList).length
  /-- Each line of the stripped text that is not blank is a statement or was ignored. -/
  succeeded : ∀ S, result = .ok S →
    c.statements = S.length ∧
    c.statements + c.ignored = ((strip source).text.toList.splitOn '\n').countP isSaid ∧
    c.statements + c.ignored ≤ c.sourceLines
  /-- Lines were ignored up to the first one refused. -/
  failed : ∀ e, result = .error e →
    c.statements = 0 ∧ c.ignored < c.sourceLines ∧
    ∃ before l after, (strip source).text.toList.splitOn '\n' = before ++ l :: after ∧
      (∀ l' ∈ before, ¬ Refused l') ∧ Refused l ∧ c.ignored = before.countP isIgnored

theorem counted_run (source : String) :
    Counted source (normalize source).value (({} : Normalizer).run source).2.counters := by
  have hsaid := countP_isSaid_le source
  rw [← length_rows 0] at hsaid
  -- the reading starts with the counters set back, so nothing is added to what it counts
  have hlines : (({} : Normalizer).run source).2.counters.sourceLines =
      (lines source.toList).length := sourceLines_readRows _ _ _
  have hrun : (({} : Normalizer).run source).2.counters = (readRows (strip source)
      ⟨⟨(lines source.toList).length, 0, 0⟩, #[], #[]⟩
      (rows 0 ((strip source).residue.splitOn '\n'))).2.counters := rfl
  rw [value_normalize, hrun]
  rw [hrun] at hlines
  refine ⟨hlines, fun S hS => ?_, fun e he => ?_⟩
  · obtain ⟨hs, hsum⟩ := counters_of_ok hS
    simp only [Array.size_empty, Nat.zero_add] at hsum
    rw [hlines, hs, hsum]
    exact ⟨rfl, length_rows 0 _, hsaid⟩
  · obtain ⟨start, ⟨before, l, after, hl, hb, hr, -⟩, -⟩ := normalize_eq_error.mp he
    obtain ⟨hs, hi⟩ := counters_of_error he
    simp only [Nat.zero_add] at hi
    rw [hlines, hs]
    refine ⟨rfl, Nat.lt_of_lt_of_le hi hsaid, before, l, after, hl, hb, hr, ?_⟩
    rw [hl, ignored_of_refused hb hr, Nat.zero_add]

/-- **The counters are exact.**  Scripts read one after another give what each gives on its own, and
leave the counters it leaves on its own, whatever the normalizer read before.  The counters of a
script count its lines.  If it can be read, they count its statements and the lines ignored, which
make up the lines of the stripped text that are not blank and are no more than the lines of the
script.  If it cannot, they count no statement and the ignored lines before the refused one, fewer
than the lines of the script. -/
theorem counters_exact (n : Normalizer) (sources : List String) :
    (n.runAll sources = sources.map fun source =>
      ((({} : Normalizer).run source).1, (({} : Normalizer).run source).2.counters)) ∧
    ∀ source, Counted source (({} : Normalizer).run source).1.value
      (({} : Normalizer).run source).2.counters :=
  ⟨n.runAll_eq_map sources, counted_run⟩

/-- A script that is refused on the line where its comment ends, for want of a method name, and one
that can be read; the normalizer holds counters of another reading. -/
theorem counters_exact_after_refusal :
    let refused := "x ::\n\na -> b ()\n/*\n*/ e -> (2)\ny"
    let accepted := "// c\na -> b (1)\r\n  z /*\n*/ z\n"
    (((⟨⟨9, 9, 9⟩⟩ : Normalizer).runAll [refused, accepted]).map fun run => run.2) =
        [⟨6, 0, 1⟩, ⟨4, 1, 1⟩] ∧
      Counted refused (.error ⟨5⟩) ⟨6, 0, 1⟩ ∧
      Counted accepted (.ok [.invoke ⟨"a", "b", ["1"]⟩]) ⟨4, 1, 1⟩ := by
  intro refused accepted
  obtain ⟨hall, hone⟩ := counters_exact ⟨⟨9, 9, 9⟩⟩ [refused, accepted]
  have hr : (({} : Normalizer).run refused).1.value = .error ⟨5⟩ ∧
      (({} : Normalizer).run refused).2.counters = ⟨6, 0, 1⟩ := by decide +kernel
  have ha : (({} : Normalizer).run accepted).1.value = .ok [.invoke ⟨"a", "b", ["1"]⟩] ∧
      (({} : Normalizer).run accepted).2.counters = ⟨4, 1, 1⟩ := by decide +kernel
  refine ⟨?_, hr.1 ▸ hr.2 ▸ hone refused, ha.1 ▸ ha.2 ▸ hone accepted⟩
  rw [hall, List.map_cons, List.map_cons, List.map_cons, List.map_cons, hr.2, ha.2]
  rfl

end SceneScript
