import SceneScript.Proofs.Comment.Copy
import SceneScript.Proofs.Result
import SceneScript.Proofs.Text.Line
import SceneScript.Script

/-!
# Proofs — Script — where a script is refused

A script is refused at the first line, of what is left once comments are out, that is refused on its
own (`Script.Refused`).  `Script.FirstRefused` gives the byte at which that line starts, blanks
aside, and a reading fails exactly when there is one, with the line of the script from which that
byte was taken (`normalize_eq_error`).  The byte belongs to a character that is not blank
(`FirstRefused.exists_char`), so it was copied from the script and is no space that a comment left:
the number reported is the line on which that very character stands (`refused_line_exact`).
-/

namespace SceneScript

open Text

namespace Script

/-- The line says something, and it is refused. -/
def Refused (l : List Char) : Prop :=
  trim l ≠ [] ∧ ∃ reason, Line.read (trim l) = .error reason

/-- The first of the lines to be refused starts at byte `start`, the blanks in front of it left
out; a line feed stands between the lines. -/
def FirstRefused (ls : List (List Char)) (start : Nat) : Prop :=
  ∃ before l after, ls = before ++ l :: after ∧ (∀ l' ∈ before, ¬ Refused l') ∧ Refused l ∧
    start = byteLength (before.flatMap (· ++ ['\n'])) + byteLength (l.takeWhile isBlank)

variable {l : List Char} {ls : List (List Char)} {n : Nat}

theorem not_firstRefused_nil : ¬ FirstRefused [] n := by
  rintro ⟨before, l, after, h, -⟩
  simp at h

theorem firstRefused_cons (h : Refused l) :
    FirstRefused (l :: ls) n ↔ n = byteLength (l.takeWhile isBlank) := by
  constructor
  · rintro ⟨before, l', after, e, hb, -, rfl⟩
    cases before with
    | nil => cases e; simp
    | cons b before => cases e; exact absurd h (hb l List.mem_cons_self)
  · rintro rfl
    exact ⟨[], l, ls, rfl, nofun, h, by simp⟩

theorem firstRefused_cons_of_not (h : ¬ Refused l) :
    FirstRefused (l :: ls) n ↔ ∃ m, FirstRefused ls m ∧ n = byteLength l + 1 + m := by
  constructor
  · rintro ⟨before, l', after, e, hb, hl, rfl⟩
    cases before with
    | nil => cases e; exact absurd hl h
    | cons b before =>
        cases e
        obtain ⟨-, hb⟩ := List.forall_mem_cons.mp hb
        refine ⟨_, ⟨before, l', after, rfl, hb, hl, rfl⟩, ?_⟩
        simp only [List.flatMap_cons, byteLength_append, byteLength_cons, byteLength_nil,
          show '\n'.utf8Size = 1 from rfl]
        omega
  · rintro ⟨m, ⟨before, l', after, rfl, hb, hl, rfl⟩, rfl⟩
    refine ⟨l :: before, l', after, rfl, List.forall_mem_cons.mpr ⟨h, hb⟩, hl, ?_⟩
    simp only [List.flatMap_cons, byteLength_append, byteLength_cons, byteLength_nil,
      show '\n'.utf8Size = 1 from rfl]
    omega

theorem exists_firstRefused : (∃ n, FirstRefused ls n) ↔ ∃ l ∈ ls, Refused l := by
  induction ls with
  | nil => simp [not_firstRefused_nil]
  | cons l ls ih =>
      by_cases h : Refused l
      · simp [firstRefused_cons h, h]
      · have hn : (∃ n, FirstRefused (l :: ls) n) ↔ ∃ n, FirstRefused ls n := by
          simp only [firstRefused_cons_of_not h]
          exact ⟨fun ⟨_, m, hm, _⟩ => ⟨m, hm⟩, fun ⟨m, hm⟩ => ⟨_, m, hm, rfl⟩⟩
        rw [hn, ih]
        simp [h]

/-- The refused line starts with a character that is not blank. -/
theorem FirstRefused.exists_char {text : List Char} (h : FirstRefused (text.splitOn '\n') n) :
    ∃ u c v, text = u ++ c :: v ∧ byteLength u = n ∧ isBlank c = false := by
  obtain ⟨before, l, after, e, -, ⟨hl, -⟩, rfl⟩ := h
  obtain ⟨c, rest, hs, hc⟩ := exists_cons_of_splitOn e hl
  exact ⟨_, c, rest, hs, byteLength_append _ _, hc⟩

/-! ### A reading that fails -/

/-- **A reading stops at the first refused line**, and at no other. -/
theorem readRows_rows_eq_error {s : Stripped} {p : Progress} {offset : Nat} {e : SyntaxError} :
    (readRows s p (rows offset ls)).1 = .error e ↔
      ∃ start, FirstRefused ls start ∧ e = ⟨s.sourceLine (offset + start)⟩ := by
  induction ls generalizing p offset with
  | nil => simp [rows, readRows, not_firstRefused_nil]
  | cons l ls ih =>
      -- a line that is not refused only moves the offset on, whatever else it adds
      have skip (h : ¬ Refused l) (p : Progress) :
          (readRows s p (rows (offset + byteLength l + 1) ls)).1 = .error e ↔
            ∃ start, FirstRefused (l :: ls) start ∧ e = ⟨s.sourceLine (offset + start)⟩ := by
        rw [ih]
        simp only [firstRefused_cons_of_not h]
        constructor
        · rintro ⟨m, hm, rfl⟩
          exact ⟨_, ⟨m, hm, rfl⟩, by rw [← Nat.add_assoc, ← Nat.add_assoc]⟩
        · rintro ⟨_, ⟨m, hm, rfl⟩, rfl⟩
          exact ⟨m, hm, by rw [← Nat.add_assoc, ← Nat.add_assoc]⟩
      have read {o} (hr : Line.read (trim l) = .ok o) : ¬ Refused l := by
        rintro ⟨-, reason, h⟩
        rw [hr] at h
        cases h
      rw [rows]
      split
      · next he => exact skip (fun h => h.1 (List.isEmpty_iff.mp he)) p
      · next he =>
          rcases readRows_cons s p ⟨_, trim l⟩ _ with
            ⟨st, hr, e'⟩ | ⟨hr, e'⟩ | ⟨reason, hr, e'⟩ <;> rw [e']
          · exact skip (read hr) _
          · exact skip (read hr) _
          · have h : Refused l := ⟨fun h => he (List.isEmpty_iff.mpr h), reason, hr⟩
            simp [firstRefused_cons h, eq_comm]

end Script

open Script

/-- **A script is refused at its first refused line**, by the line of the script where that was. -/
theorem normalize_eq_error {source : String} {e : SyntaxError} :
    (normalize source).value = .error e ↔
      ∃ start, FirstRefused ((strip source).residue.splitOn '\n') start ∧
        e = ⟨(strip source).sourceLine start⟩ := by
  rw [value_normalize]
  simp only [readRows_rows_eq_error, Nat.zero_add]

/-- **The line of a refusal is exact.**  A script is refused exactly when a line of what is left of
it is, and then at the first such line: the number reported is one more than the line feeds of the
script before the byte from which the first byte of that line that is not blank was copied.  It is
the number of a line of the script. -/
theorem refused_line_exact (source : String) :
    let s := strip source
    ((∃ e, (normalize source).value = .error e) ↔
      ∃ l ∈ s.text.toList.splitOn '\n', Refused l) ∧
    ∀ e, (normalize source).value = .error e →
      ∃ start src, FirstRefused (s.text.toList.splitOn '\n') start ∧
        Copied (pieces source.toList) start src ∧
        e.line = 1 + ((bytes source.toList).take src).count newlineByte ∧
        1 ≤ e.line ∧ e.line ≤ (lines source.toList).length := by
  intro s
  constructor
  · rw [← exists_firstRefused]
    simp only [normalize_eq_error]
    exact ⟨fun ⟨_, start, h, _⟩ => ⟨start, h⟩, fun ⟨start, h⟩ => ⟨_, start, h, rfl⟩⟩
  · intro e he
    obtain ⟨start, hf, rfl⟩ := normalize_eq_error.mp he
    obtain ⟨u, c, v, hu, rfl, hc⟩ := hf.exists_char
    have hne (d : Char) (hd : isBlank d = true) : c ≠ d := by rintro rfl; rw [hd] at hc; cases hc
    obtain ⟨hcopy, x, y, hx, hplace⟩ :=
      exists_source_of_residue (hne ' ' rfl) ((residue_strip source).symm.trans hu)
    have hn : byteLength u < byteLength s.residue := hu ▸ byteLength_lt_append_cons u c v
    have hline : s.sourceLine (byteLength u) = 1 + x.count '\n' := by
      have h := newlinesBefore_append x (c :: y) 0
      rw [Nat.add_zero] at h
      rw [sourceLine_eq hn, ← hplace, hx, h]
      rfl
    have hs : source.toList = x ++ c :: y := by rw [← hx, flatMap_source_pieces]
    refine ⟨byteLength u, _, hf, hcopy, ?_, ?_, ?_⟩
    · rw [← newlinesBefore_eq_count, sourceLine_eq hn, flatMap_source_pieces]
    · rw [hline]
      exact Nat.le_add_right 1 _
    · rw [hline, hs, Nat.add_comm]
      exact count_newline_lt_length_lines (hne '\n' rfl) x y

/-- A comment over two lines ends on the third, where a no-break space stands before the line that
is refused, for want of a method name. -/
theorem refused_line_exact_after_comment :
    let source := "a -> b ()\r\n/*\n*/\u00A0é -> (2)"
    let s := strip source
    (normalize source).value = .error ⟨3⟩ ∧ (∃ l ∈ s.text.toList.splitOn '\n', Refused l) ∧
      ∃ start src, FirstRefused (s.text.toList.splitOn '\n') start ∧
        Copied (pieces source.toList) start src ∧
        3 = 1 + ((bytes source.toList).take src).count newlineByte ∧
        1 ≤ 3 ∧ 3 ≤ (lines source.toList).length := by
  intro source s
  have he : (normalize source).value = .error ⟨3⟩ := by decide +kernel
  obtain ⟨hiff, hline⟩ := refused_line_exact source
  exact ⟨he, hiff.mp ⟨_, he⟩, hline ⟨3⟩ he⟩

end SceneScript
