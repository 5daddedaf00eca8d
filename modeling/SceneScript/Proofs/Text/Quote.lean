import Mathlib.Data.List.Chain
import SceneScript.Text.Blank
import SceneScript.Text.Quote

/-!
# Proofs — Text — where a quote closes

A quote is *guarded* when it directly follows a backslash.  `closeQuote` stops at the first quote
that is not (`closeQuote_eq_some`), and finds none exactly when all are guarded
(`closeQuote_eq_none`).  Being guarded is a relation between neighbours, so a text is guarded part
by part (`guarded_append`).
-/

namespace SceneScript.Text

theorem isQuote_iff {c : Char} : isQuote c ↔ c = '"' ∨ c = '\'' := by
  simp [isQuote]

theorem not_isBlank_of_isQuote {c : Char} (h : isQuote c) : isBlank c = false := by
  rcases isQuote_iff.mp h with rfl | rfl <;> rfl

/-- Every `q` in `s`, but for one at its very start, directly follows a backslash. -/
def Guarded (q : Char) (s : List Char) : Prop :=
  s.IsChain fun a b => b = q → a = '\\'

theorem guarded_cons_cons {q a b : Char} {s : List Char} :
    Guarded q (a :: b :: s) ↔ (b = q → a = '\\') ∧ Guarded q (b :: s) :=
  List.isChain_cons_cons

/-- A text is guarded when both its parts are, the second together with the last character of
the first. -/
theorem guarded_append {q a b : Char} {u v : List Char} (h : (a :: u).getLast? = some b) :
    Guarded q (a :: (u ++ v)) ↔ Guarded q (a :: u) ∧ Guarded q (b :: v) := by
  obtain ⟨w, hw⟩ := List.getLast?_eq_some_iff.mp h
  rw [← List.cons_append, hw, List.append_assoc, List.singleton_append]
  exact List.isChain_split

/-- **An opening quote has no partner** when all later ones are guarded. -/
theorem closeQuote_eq_none {q prev : Char} {s : List Char} :
    closeQuote q prev s = none ↔ Guarded q (prev :: s) := by
  induction s generalizing prev with
  | nil => simp [closeQuote, Guarded]
  | cons c cs ih =>
      rw [closeQuote, guarded_cons_cons, ← ih]
      split
      · next h => simp [h.1, h.2]
      · next h =>
          have h' : c = q → prev = '\\' := fun hc => not_not.mp fun hp => h ⟨hc, hp⟩
          simpa using fun _ => h'

theorem closeQuote_of_guarded {q prev : Char} {body : List Char} (hg : Guarded q (prev :: body))
    (hl : (prev :: body).getLast? ≠ some '\\') (rest : List Char) :
    closeQuote q prev (body ++ q :: rest) = some (body ++ [q], rest) := by
  induction body generalizing prev with
  | nil =>
      have hp : prev ≠ '\\' := by simpa using hl
      simp [closeQuote, hp]
  | cons c cs ih =>
      obtain ⟨hc, hg⟩ := guarded_cons_cons.mp hg
      have hn : ¬ (c = q ∧ prev ≠ '\\') := fun h => h.2 (hc h.1)
      rw [List.cons_append, closeQuote, if_neg hn,
        ih hg (by rwa [List.getLast?_cons_cons] at hl)]
      rfl

/-- **An opening quote closes** at the first one that is not guarded. -/
theorem closeQuote_eq_some {q prev : Char} {s run rest : List Char} :
    closeQuote q prev s = some (run, rest) ↔
      ∃ body, run = body ++ [q] ∧ s = run ++ rest ∧ Guarded q (prev :: body) ∧
        (prev :: body).getLast? ≠ some '\\' := by
  constructor
  · intro h
    induction s generalizing prev run with
    | nil => cases h
    | cons c cs ih =>
        rw [closeQuote] at h
        split at h
        · next hc =>
            cases h
            exact ⟨[], by simp [hc.1], rfl, .singleton prev, by simpa using hc.2⟩
        · next hc =>
            obtain ⟨⟨run', rest'⟩, h', e⟩ := Option.map_eq_some_iff.mp h
            cases e
            obtain ⟨body, rfl, rfl, hg, hl⟩ := ih h'
            refine ⟨c :: body, rfl, rfl, guarded_cons_cons.mpr ⟨fun e => ?_, hg⟩, ?_⟩
            · exact not_not.mp fun hp => hc ⟨e, hp⟩
            · rwa [List.getLast?_cons_cons]
  · rintro ⟨body, rfl, rfl, hg, hl⟩
    rw [List.append_assoc]
    exact closeQuote_of_guarded hg hl rest

end SceneScript.Text
