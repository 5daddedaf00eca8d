import Mathlib.Data.List.Infix
import SceneScript.Text.Cut

/-!
# Proofs — Text — Cut

Where a text is cut.  `cut` gives back the two sides of the mark (`append_of_cut`), and a mark that
stands in a text is found at the same place when more text follows (`cut_append`).  A text is also
cut at the first of a given character, or before the last one of all (`dropLast_eq_some`).

A marker of a script is a word between two spaces (`spaced`), and so is looked for word by word: a
text that starts with another word is cut in what follows (`cut_spaced_of_ne`), and one that starts
with the word of the marker right there (`cut_spaced_self`).
-/

namespace SceneScript.Text

variable {mark s u v : List Char}

theorem cut_cons_of_isPrefixOf {c : Char} {rest : List Char} (h : mark ++ rest = c :: s) :
    cut mark (c :: s) = some ([], rest) := by
  rw [cut, List.isPrefixOf?_eq_some_iff_append_eq.mpr h]

theorem cut_cons_of_not_isPrefixOf {c : Char} (h : ¬ mark <+: c :: s) :
    cut mark (c :: s) = (cut mark s).map fun r => (c :: r.1, r.2) := by
  rw [cut]
  split
  · next rest e => exact absurd ⟨rest, List.isPrefixOf?_eq_some_iff_append_eq.mp e⟩ h
  · rfl

/-- The sides of the mark and the mark make up the text. -/
theorem append_of_cut (h : cut mark s = some (u, v)) : s = u ++ (mark ++ v) := by
  induction s generalizing u with
  | nil =>
      rw [cut] at h
      split at h
      · next he => cases h; simp [List.isEmpty_iff.mp he]
      · cases h
  | cons c s ih =>
      by_cases hp : mark <+: c :: s
      · obtain ⟨rest, e⟩ := hp
        rw [cut_cons_of_isPrefixOf e] at h
        cases h
        exact e.symm
      · rw [cut_cons_of_not_isPrefixOf hp] at h
        obtain ⟨⟨u', v'⟩, h', e⟩ := Option.map_eq_some_iff.mp h
        cases e
        rw [List.cons_append, ← ih h']

/-- **A mark is found where it was** when more text follows. -/
theorem cut_append (h : cut mark s = some (u, v)) (t : List Char) :
    cut mark (s ++ t) = some (u, v ++ t) := by
  induction s generalizing u with
  | nil =>
      rw [cut] at h
      split at h
      · next he =>
          cases h
          rw [List.isEmpty_iff.mp he]
          cases t with
          | nil => rfl
          | cons c t => exact cut_cons_of_isPrefixOf rfl
      · cases h
  | cons c s ih =>
      by_cases hp : mark <+: c :: s
      · obtain ⟨rest, e⟩ := hp
        rw [cut_cons_of_isPrefixOf e] at h
        cases h
        exact cut_cons_of_isPrefixOf (by rw [← List.append_assoc, e]; rfl)
      · have hp' : ¬ mark <+: c :: (s ++ t) := by
          -- the mark stands in `s`, so it is not long enough to reach over its end
          rw [cut_cons_of_not_isPrefixOf hp] at h
          obtain ⟨⟨u', v'⟩, h', -⟩ := Option.map_eq_some_iff.mp h
          have hl := congrArg List.length (append_of_cut h')
          simp only [List.length_append] at hl
          intro hm
          refine hp (List.prefix_of_prefix_length_le hm ⟨t, rfl⟩ ?_)
          simp only [List.length_cons]
          omega
        rw [cut_cons_of_not_isPrefixOf hp] at h
        obtain ⟨⟨u', v'⟩, h', e⟩ := Option.map_eq_some_iff.mp h
        cases e
        rw [List.cons_append, cut_cons_of_not_isPrefixOf hp', ih h']
        rfl

/-! ### The first of a character -/

section First

variable {c : Char} {w : List Char}

theorem forall_ne_of_not_mem (h : c ∉ w) : ∀ d ∈ w, decide (d ≠ c) = true := by
  intro d hd
  refine decide_eq_true ?_
  rintro rfl
  exact h hd

theorem takeWhile_ne_append (h : c ∉ w) (rest : List Char) :
    (w ++ c :: rest).takeWhile (· ≠ c) = w := by
  rw [List.takeWhile_append_of_pos (forall_ne_of_not_mem h)]
  simp

theorem dropWhile_ne_append (h : c ∉ w) (rest : List Char) :
    (w ++ c :: rest).dropWhile (· ≠ c) = c :: rest := by
  rw [List.dropWhile_append_of_pos (forall_ne_of_not_mem h)]
  simp

end First

/-! ### The last character -/

/-- What stands before the last character, if that is `c`. -/
theorem dropLast_eq_some {c : Char} {s inner : List Char} :
    (if s.getLast? = some c then some s.dropLast else none) = some inner ↔ s = inner ++ [c] := by
  split
  · next hl =>
      obtain ⟨s', rfl⟩ := List.getLast?_eq_some_iff.mp hl
      simp
  · next hl =>
      refine ⟨nofun, ?_⟩
      rintro rfl
      exact absurd List.getLast?_concat hl

/-! ### Words between spaces -/

/-- A word with a space at either end. -/
def spaced (w : List Char) : List Char :=
  ' ' :: (w ++ [' '])

theorem cut_spaced_self (w rest : List Char) :
    cut (spaced w) (' ' :: (w ++ ' ' :: rest)) = some ([], rest) :=
  cut_cons_of_isPrefixOf (by simp [spaced])

/-- No marker starts inside a word. -/
theorem cut_spaced_append (w : List Char) {w' : List Char} (hw' : ' ' ∉ w') (rest : List Char) :
    cut (spaced w) (w' ++ rest) = (cut (spaced w) rest).map fun r => (w' ++ r.1, r.2) := by
  induction w' with
  | nil => simp
  | cons c w' ih =>
      obtain ⟨hc, hw'⟩ := not_or.mp (fun h => hw' (List.mem_cons.mpr h))
      have hp : ¬ spaced w <+: c :: (w' ++ rest) := fun h => hc (List.cons_prefix_cons.mp h).1
      rw [List.cons_append, cut_cons_of_not_isPrefixOf hp, ih hw', Option.map_map]
      rfl

/-- **Another word is passed over.** -/
theorem cut_spaced_of_ne {w w' : List Char} (hw : ' ' ∉ w) (hw' : ' ' ∉ w') (hne : w' ≠ w)
    (rest : List Char) :
    cut (spaced w) (' ' :: (w' ++ ' ' :: rest)) =
      (cut (spaced w) (' ' :: rest)).map fun r => (' ' :: (w' ++ r.1), r.2) := by
  have hp : ¬ spaced w <+: ' ' :: (w' ++ ' ' :: rest) := by
    rintro ⟨t, e⟩
    have e : w ++ ' ' :: t = w' ++ ' ' :: rest := by simpa [spaced] using e
    exact hne (by rw [← takeWhile_ne_append hw' rest, ← e, takeWhile_ne_append hw])
  rw [cut_cons_of_not_isPrefixOf hp, cut_spaced_append w hw', Option.map_map]
  rfl

end SceneScript.Text
