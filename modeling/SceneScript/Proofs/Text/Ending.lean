import Mathlib.Data.List.Chain
import SceneScript.Proofs.Text.Line

/-!
# Proofs — Text — line endings

`crlf s` is `s` with a carriage return put before every line feed.  Neither end of a text tells it
apart but for that carriage return (`head?_crlf`, `getLast?_crlf`), it has the same line feeds
(`count_newline_crlf`), and a relation between neighbours that lets a carriage return stand anywhere
survives (`isChain_crlf`).

Between line feeds stand the same stretches, with a carriage return at the end of each but the last
(`splitOn_crlf`).  Trimmed they are the same (`map_trim_returned`), and there are as many lines
(`length_lines_crlf`).
-/

namespace SceneScript.Text

/-- `s` with a carriage return before every line feed. -/
def crlf (s : List Char) : List Char :=
  s.flatMap fun c => if c = '\n' then ['\r', '\n'] else [c]

/-- The text with a carriage return before every line feed. -/
def withCrlf (text : String) : String :=
  String.ofList (crlf text.toList)

@[simp] theorem crlf_nil : crlf [] = [] := rfl

theorem crlf_cons_newline (s : List Char) : crlf ('\n' :: s) = '\r' :: '\n' :: crlf s := rfl

theorem crlf_cons_of_ne {c : Char} (hc : c ≠ '\n') (s : List Char) :
    crlf (c :: s) = c :: crlf s := by
  rw [crlf, List.flatMap_cons, if_neg hc]
  rfl

@[simp] theorem crlf_append (s t : List Char) : crlf (s ++ t) = crlf s ++ crlf t :=
  List.flatMap_append

/-- Without line feeds there is nothing to do. -/
theorem crlf_eq_self {s : List Char} (h : '\n' ∉ s) : crlf s = s := by
  induction s with
  | nil => rfl
  | cons c s ih =>
      rw [List.mem_cons, not_or] at h
      rw [crlf_cons_of_ne (Ne.symm h.1), ih h.2]

theorem count_newline_crlf (s : List Char) : (crlf s).count '\n' = s.count '\n' := by
  induction s with
  | nil => rfl
  | cons c s ih =>
      by_cases hc : c = '\n'
      · subst hc
        rw [crlf_cons_newline, List.count_cons_of_ne (by decide), List.count_cons_self,
          List.count_cons_self, ih]
      · rw [crlf_cons_of_ne hc, List.count_cons_of_ne hc, List.count_cons_of_ne hc, ih]

theorem head?_crlf (s : List Char) :
    (crlf s).head? = s.head?.map fun c => if c = '\n' then '\r' else c := by
  cases s with
  | nil => rfl
  | cons c s =>
      by_cases hc : c = '\n'
      · subst hc; rfl
      · rw [crlf_cons_of_ne hc]
        simp [hc]

theorem getLast?_crlf (s : List Char) : (crlf s).getLast? = s.getLast? := by
  rcases List.eq_nil_or_concat s with rfl | ⟨s, c, rfl⟩
  · rfl
  · rw [List.concat_eq_append, crlf_append, List.getLast?_concat]
    by_cases hc : c = '\n'
    · subst hc
      exact List.getLast?_append_of_ne_nil _ nofun
    · rw [crlf_cons_of_ne hc, crlf_nil, List.getLast?_concat]

/-- Neighbours stay related if anything may stand before a carriage return. -/
theorem isChain_crlf {R : Char → Char → Prop} (hr : ∀ a, R a '\r') (hn : R '\r' '\n') {a : Char}
    {s : List Char} (h : (a :: s).IsChain R) : (a :: crlf s).IsChain R := by
  induction s generalizing a with
  | nil => exact h
  | cons c s ih =>
      obtain ⟨hac, h⟩ := List.isChain_cons_cons.mp h
      by_cases hc : c = '\n'
      · subst hc
        rw [crlf_cons_newline]
        exact .cons_cons (hr a) (.cons_cons hn (ih h))
      · rw [crlf_cons_of_ne hc]
        exact .cons_cons hac (ih h)

/-! ### Lines -/

/-- The stretches with a carriage return at the end of each but the last. -/
def returned : List (List Char) → List (List Char)
  | []            => []
  | [l]           => [l]
  | l :: l' :: ls => (l ++ ['\r']) :: returned (l' :: ls)

theorem returned_cons (l : List Char) {ls : List (List Char)} (h : ls ≠ []) :
    returned (l :: ls) = (l ++ ['\r']) :: returned ls := by
  obtain ⟨l', ls, rfl⟩ := List.exists_cons_of_ne_nil h
  rfl

theorem returned_modifyHead (c : Char) (ls : List (List Char)) :
    returned (ls.modifyHead (c :: ·)) = (returned ls).modifyHead (c :: ·) := by
  rcases ls with _ | ⟨l, _ | ⟨l', ls⟩⟩ <;> rfl

/-- **Each line ending gets its carriage return**, and nothing else changes. -/
theorem splitOn_crlf (s : List Char) : (crlf s).splitOn '\n' = returned (s.splitOn '\n') := by
  induction s with
  | nil => rfl
  | cons c s ih =>
      rw [List.splitOn_cons_eq_if_modifyHead]
      by_cases hc : c = '\n'
      · subst hc
        have hr : '\n' ∉ ['\r'] := by decide
        rw [crlf_cons_newline, if_pos (beq_self_eq_true _),
          returned_cons [] (List.splitOn_ne_nil _ _), ← ih]
        exact List.splitOn_append_cons_self_of_not_mem hr _
      · have hb : ¬ (c == '\n') := by simpa using hc
        rw [crlf_cons_of_ne hc, List.splitOn_cons_eq_if_modifyHead, if_neg hb, if_neg hb, ih,
          returned_modifyHead]

theorem map_trim_returned (ls : List (List Char)) : (returned ls).map trim = ls.map trim := by
  induction ls using returned.induct with
  | case1 => rfl
  | case2 l => rfl
  | case3 l l' ls ih =>
      rw [returned, List.map_cons, List.map_cons, trim_concat_of_isBlank rfl, ih]

theorem length_closeLines_returned (ls : List (List Char)) :
    (closeLines (returned ls)).length = (closeLines ls).length := by
  have step (l : List Char) {ls : List (List Char)} (h : ls ≠ []) :
      (closeLines (l :: ls)).length = (closeLines ls).length + 1 := by
    obtain ⟨l', ls, rfl⟩ := List.exists_cons_of_ne_nil h
    rfl
  induction ls using returned.induct with
  | case1 => rfl
  | case2 l => rfl
  | case3 l l' ls ih =>
      have hne : returned (l' :: ls) ≠ [] := by cases ls <;> exact nofun
      rw [returned, step _ hne, ih]
      rfl

theorem length_lines_crlf (s : List Char) : (lines (crlf s)).length = (lines s).length := by
  rw [lines, splitOn_crlf, length_closeLines_returned, lines]

end SceneScript.Text
