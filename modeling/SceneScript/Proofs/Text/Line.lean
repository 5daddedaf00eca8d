import Mathlib.Data.List.TakeWhile
import SceneScript.Text.Blank
import SceneScript.Text.Line

/-!
# Proofs — Text — Line

A line and its two ends.  Trimming takes blanks from both ends of a line and nothing else
(`exists_append_trim`), and leaves a line alone that starts and ends with a character that is not
blank (`trim_eq_self`).

A line feed closes the line before it whatever follows (`lines_append_newline`), so a text made of
closed lines has just those lines (`lines_flatMap_newline`), a text that ends its last line is
followed by the lines of the next one (`exists_splitOn_append`), and each character that is no line
feed stands on one of the lines (`count_newline_lt_length_lines`).
-/

namespace SceneScript.Text

/-! ### The ends of a line -/

theorem trimStart_cons_of_isBlank {c : Char} (hc : isBlank c) (s : List Char) :
    trimStart (c :: s) = trimStart s :=
  List.dropWhile_cons_of_pos hc

theorem trimStart_cons_of_not_isBlank {c : Char} (hc : isBlank c = false) (s : List Char) :
    trimStart (c :: s) = c :: s :=
  List.dropWhile_cons_of_neg (by simp [hc])

/-- A line with nothing to trim. -/
theorem trim_eq_self {s : List Char} (hs : ∀ c ∈ s.head?, isBlank c = false)
    (he : ∀ c ∈ s.getLast?, isBlank c = false) : trim s = s := by
  have ht : trimStart s = s := by
    cases s with
    | nil => rfl
    | cons c cs => exact trimStart_cons_of_not_isBlank (hs c rfl) cs
  rw [trim, ht, trimEnd]
  rw [← List.head?_reverse] at he
  cases h : s.reverse with
  | nil => rw [List.reverse_eq_nil_iff.mp h]; rfl
  | cons c cs =>
      rw [h] at he
      rw [List.dropWhile_cons_of_neg (by simp [he c rfl]), ← h, List.reverse_reverse]

theorem trim_cons_of_isBlank {c : Char} (hc : isBlank c) (s : List Char) :
    trim (c :: s) = trim s := by
  rw [trim, trimStart_cons_of_isBlank hc, trim]

/-- Blanks only, or nothing. -/
def IsBlanks (w : List Char) : Prop :=
  ∀ c ∈ w, isBlank c

theorem trimStart_append {w : List Char} (hw : IsBlanks w) (s : List Char) :
    trimStart (w ++ s) = trimStart s :=
  List.dropWhile_append_of_pos hw

theorem trimStart_eq_nil {s : List Char} : trimStart s = [] ↔ IsBlanks s :=
  List.dropWhile_eq_nil_iff

theorem trim_append {w : List Char} (hw : IsBlanks w) (s : List Char) : trim (s ++ w) = trim s := by
  have he (t : List Char) : trimEnd (t ++ w) = trimEnd t := by
    rw [trimEnd, List.reverse_append,
      List.dropWhile_append_of_pos fun c hc => hw c (List.mem_reverse.mp hc), trimEnd]
  rw [trim, trim, trimStart, trimStart, List.dropWhile_append]
  split
  · next h => rw [List.isEmpty_iff.mp h, List.dropWhile_eq_nil_iff.mpr hw]
  · exact he _

theorem trim_concat_of_isBlank {c : Char} (hc : isBlank c) (s : List Char) :
    trim (s ++ [c]) = trim s :=
  trim_append (List.forall_mem_singleton.mpr hc) s

theorem trimEnd_append_blanks (s : List Char) :
    trimEnd s ++ (s.reverse.takeWhile isBlank).reverse = s := by
  rw [trimEnd, ← List.reverse_append, List.takeWhile_append_dropWhile, List.reverse_reverse]

/-- **Blanks and nothing else are trimmed.** -/
theorem exists_append_trim (s : List Char) :
    ∃ w w', s = w ++ (trim s ++ w') ∧ IsBlanks w ∧ IsBlanks w' := by
  refine ⟨s.takeWhile isBlank, ((trimStart s).reverse.takeWhile isBlank).reverse, ?_, ?_, ?_⟩
  · rw [trim, trimEnd_append_blanks, trimStart, List.takeWhile_append_dropWhile]
  · exact fun c hc => List.mem_takeWhile_imp hc
  · exact fun c hc => List.mem_takeWhile_imp (List.mem_reverse.mp hc)

theorem not_isBlank_of_head?_trimStart {s : List Char} {c : Char} (h : c ∈ (trimStart s).head?) :
    isBlank c = false := by
  have hs := List.head?_dropWhile_not isBlank s
  rw [show (s.dropWhile isBlank).head? = some c from h] at hs
  exact hs

/-- A line that says something starts, blanks aside, with a character that is not blank. -/
theorem exists_cons_of_trim_ne_nil {s : List Char} (h : trim s ≠ []) :
    ∃ c t, s = s.takeWhile isBlank ++ c :: t ∧ isBlank c = false := by
  cases ht : trimStart s with
  | nil => exact absurd (by rw [trim, ht]; rfl) h
  | cons c t =>
      refine ⟨c, t, ?_, not_isBlank_of_head?_trimStart (s := s) (by rw [ht]; rfl)⟩
      rw [← ht, trimStart, List.takeWhile_append_dropWhile]

theorem trim_trim (s : List Char) : trim (trim s) = trim s := by
  refine trim_eq_self (fun c hc => ?_) (fun c hc => ?_)
  · refine not_isBlank_of_head?_trimStart (s := s) ?_
    rw [← trimEnd_append_blanks (trimStart s), ← trim, List.head?_append, hc]
    rfl
  · refine not_isBlank_of_head?_trimStart (s := (trimStart s).reverse) ?_
    rwa [trim, trimEnd, List.getLast?_reverse] at hc

/-- A text and what is left of it once trimmed. -/
theorem trim_eq_iff {s t : List Char} (ht : trim t = t) :
    trim s = t ↔ ∃ w w', s = w ++ (t ++ w') ∧ IsBlanks w ∧ IsBlanks w' := by
  constructor
  · rintro rfl
    exact exists_append_trim s
  · rintro ⟨w, w', rfl, hw, hw'⟩
    rw [trim, trimStart_append hw, ← trim, trim_append hw', ht]

theorem mem_of_mem_trim {c : Char} {s : List Char} (h : c ∈ trim s) : c ∈ s := by
  rw [trim, trimEnd, List.mem_reverse] at h
  have h := (List.dropWhile_sublist _).mem h
  rw [List.mem_reverse] at h
  exact (List.dropWhile_sublist _).mem h

/-- A character that is neither in what is joined nor in the text between. -/
theorem not_mem_intercalate {c : Char} {sep : List Char} (hsep : c ∉ sep) :
    ∀ {parts : List (List Char)}, (∀ p ∈ parts, c ∉ p) → c ∉ sep.intercalate parts
  | [], _ => List.not_mem_nil
  | [p], h => by simpa [List.intercalate] using h p List.mem_cons_self
  | p :: p' :: parts, h => by
      obtain ⟨hp, hparts⟩ := List.forall_mem_cons.mp h
      simp only [List.intercalate_cons_cons, List.mem_append, not_or]
      exact ⟨⟨hp, hsep⟩, not_mem_intercalate hsep hparts⟩

/-! ### Between line feeds -/

/-- Each stretch between line feeds stands after the stretches before it and their line feeds. -/
theorem exists_append_of_splitOn {s l : List Char} {before after : List (List Char)}
    (h : s.splitOn '\n' = before ++ l :: after) :
    ∃ rest, s = before.flatMap (· ++ ['\n']) ++ (l ++ rest) := by
  have hs : ['\n'].intercalate (s.splitOn '\n') = s := List.intercalate_splitOn '\n'
  rw [← hs, h]
  clear h hs
  induction before with
  | nil =>
      cases after with
      | nil => exact ⟨[], by simp⟩
      | cons l' after =>
          refine ⟨['\n'] ++ ['\n'].intercalate (l' :: after), ?_⟩
          rw [List.nil_append, List.intercalate_cons_cons, List.append_assoc]
          rfl
  | cons l' before ih =>
      obtain ⟨rest, h⟩ := ih
      refine ⟨rest, ?_⟩
      rw [List.cons_append, List.intercalate_cons_of_ne_nil (by simp), h, List.flatMap_cons,
        List.append_assoc _ (List.flatMap _ _)]

/-- A stretch that is not blank starts, blanks aside, with a character that is not. -/
theorem exists_cons_of_splitOn {s l : List Char} {before after : List (List Char)}
    (h : s.splitOn '\n' = before ++ l :: after) (hl : trim l ≠ []) :
    ∃ c rest, s = before.flatMap (· ++ ['\n']) ++ l.takeWhile isBlank ++ c :: rest ∧
      isBlank c = false := by
  obtain ⟨rest, rfl⟩ := exists_append_of_splitOn h
  obtain ⟨c, t, ht, hc⟩ := exists_cons_of_trim_ne_nil hl
  refine ⟨c, t ++ rest, ?_, hc⟩
  conv => lhs; rw [ht]
  simp only [List.append_assoc, List.cons_append]

theorem newline_not_mem_of_mem_splitOn {s l : List Char} (h : l ∈ s.splitOn '\n') : '\n' ∉ l := by
  induction s generalizing l with
  | nil =>
      rw [List.splitOn_nil, List.mem_singleton] at h
      rw [h]
      exact List.not_mem_nil
  | cons c s ih =>
      rw [List.splitOn_cons_eq_if_modifyHead] at h
      split at h
      · rcases List.mem_cons.mp h with rfl | h
        · exact List.not_mem_nil
        · exact ih h
      · next hc =>
          obtain ⟨d, ds, e⟩ := List.exists_cons_of_ne_nil (List.splitOn_ne_nil '\n' s)
          rw [e] at h ih
          rcases List.mem_cons.mp h with rfl | h
          · rw [List.mem_cons, not_or]
            exact ⟨fun e => hc (beq_iff_eq.mpr e.symm), ih List.mem_cons_self⟩
          · exact ih (List.mem_cons_of_mem d h)

theorem length_splitOn_newline (s : List Char) : (s.splitOn '\n').length = s.count '\n' + 1 := by
  induction s with
  | nil => rfl
  | cons c s ih =>
      rw [List.splitOn_cons_eq_if_modifyHead, List.count_cons]
      split <;> simp [ih]

/-- A text that ends its last line is followed by the lines of whatever comes after it. -/
theorem exists_splitOn_append {s : List Char} (h : s = [] ∨ s.getLast? = some '\n') :
    ∃ ls : List (List Char), ls.length = s.count '\n' ∧
      ∀ t : List Char, (s ++ t).splitOn '\n' = ls ++ t.splitOn '\n' := by
  rcases h with rfl | h
  · exact ⟨[], rfl, fun t => rfl⟩
  · obtain ⟨s', rfl⟩ := List.getLast?_eq_some_iff.mp h
    refine ⟨s'.splitOn '\n', ?_, fun t => ?_⟩
    · rw [length_splitOn_newline, List.count_append]
      rfl
    · rw [List.append_assoc, List.singleton_append, List.splitOn_append_cons_self]

theorem splitOn_flatMap_newline {ls : List (List Char)} (hn : ∀ l ∈ ls, '\n' ∉ l) :
    (ls.flatMap (· ++ ['\n'])).splitOn '\n' = ls ++ [[]] := by
  induction ls with
  | nil => rfl
  | cons l ls ih =>
      obtain ⟨hl, hls⟩ := List.forall_mem_cons.mp hn
      rw [List.flatMap_cons, List.append_assoc, List.singleton_append,
        List.splitOn_append_cons_self_of_not_mem hl, ih hls, List.cons_append]

/-! ### The lines of a text -/

theorem chopReturn_eq_self {l : List Char} (h : l.getLast? ≠ some '\r') : chopReturn l = l :=
  if_neg h

theorem trim_chopReturn (l : List Char) : trim (chopReturn l) = trim l := by
  rw [chopReturn]
  split
  · next h =>
      obtain ⟨l', rfl⟩ := List.getLast?_eq_some_iff.mp h
      rw [List.dropLast_concat, trim_concat_of_isBlank rfl]
  · rfl

/-- **A line feed closes a line**, and the lines after it are those of what follows. -/
theorem lines_append_newline {l : List Char} (hl : '\n' ∉ l) (rest : List Char) :
    lines (l ++ '\n' :: rest) = chopReturn l :: lines rest := by
  rw [lines, List.splitOn_append_cons_self_of_not_mem hl, lines]
  cases h : rest.splitOn '\n' with
  | nil => exact absurd h (List.splitOn_ne_nil _ _)
  | cons => rfl

/-- A text of lines that each end in a line feed has just those lines. -/
theorem lines_flatMap_newline {ls : List (List Char)} (hn : ∀ l ∈ ls, '\n' ∉ l)
    (hr : ∀ l ∈ ls, chopReturn l = l) : lines (ls.flatMap (· ++ ['\n'])) = ls := by
  induction ls with
  | nil => rfl
  | cons l ls ih =>
      rw [List.flatMap_cons, List.append_assoc, List.singleton_append,
        lines_append_newline (hn l List.mem_cons_self), hr l List.mem_cons_self,
        ih (fun l' h => hn l' (List.mem_cons_of_mem l h))
          (fun l' h => hr l' (List.mem_cons_of_mem l h))]

/-- A character in front that is no line feed adds to the first line, or makes one. -/
theorem length_lines_cons {c : Char} (hc : c ≠ '\n') (s : List Char) :
    (lines (c :: s)).length = max 1 (lines s).length := by
  rw [lines, lines, List.splitOn_cons_eq_if_modifyHead, if_neg (by simpa using hc)]
  obtain ⟨l, ls, e⟩ := List.exists_cons_of_ne_nil (List.splitOn_ne_nil '\n' s)
  rw [e, List.modifyHead_cons]
  cases ls with
  | nil => cases l <;> simp [closeLines]
  | cons l' ls => simp [closeLines]

theorem length_lines_cons_newline (s : List Char) :
    (lines ('\n' :: s)).length = (lines s).length + 1 := by
  have h := lines_append_newline (List.not_mem_nil (a := '\n')) s
  rw [List.nil_append] at h
  rw [h, List.length_cons]

/-- The same text in front adds as many lines, or a line less where one is under way. -/
theorem length_lines_append_le {s t : List Char} (h : (lines s).length ≤ (lines t).length)
    (x : List Char) : (lines (x ++ s)).length ≤ (lines (x ++ t)).length := by
  induction x with
  | nil => exact h
  | cons c x ih =>
      rw [List.cons_append, List.cons_append]
      by_cases hc : c = '\n'
      · subst hc
        rw [length_lines_cons_newline, length_lines_cons_newline]
        omega
      · rw [length_lines_cons hc, length_lines_cons hc]
        omega

theorem length_lines_le_append (x s : List Char) :
    (lines s).length ≤ (lines (x ++ s)).length := by
  induction x with
  | nil => exact Nat.le_refl _
  | cons c x ih =>
      rw [List.cons_append]
      by_cases hc : c = '\n'
      · subst hc
        rw [length_lines_cons_newline]
        omega
      · rw [length_lines_cons hc]
        omega

/-- **A character that ends no line stands on one**, which is counted with those before it. -/
theorem count_newline_lt_length_lines {c : Char} (hc : c ≠ '\n') (x y : List Char) :
    x.count '\n' < (lines (x ++ c :: y)).length := by
  induction x with
  | nil => rw [List.nil_append, length_lines_cons hc, List.count_nil]; omega
  | cons d x ih =>
      by_cases hd : d = '\n'
      · subst hd
        rw [List.cons_append, length_lines_cons_newline, List.count_cons_self]
        omega
      · rw [List.cons_append, length_lines_cons hd, List.count_cons_of_ne hd]
        omega

end SceneScript.Text
