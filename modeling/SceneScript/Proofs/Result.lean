/-!
# Proofs — Result

Results that may be refusals.  A chain of steps succeeds when every step of it does
(`bind_eq_ok`, `map_eq_ok`), which is how a reader is taken apart step by step, and a refusal passes
through (`map_eq_error`); and results can be compared, so that what a closed text gives can be
evaluated, up to the refusal where that cannot be compared (`toOption_eq_none`).
-/

namespace SceneScript

variable {ε α β : Type}

theorem bind_eq_ok {x : Except ε α} {f : α → Except ε β} {b : β} :
    (x >>= f) = .ok b ↔ ∃ a, x = .ok a ∧ f a = .ok b := by
  cases x <;> simp [bind, Except.bind]

theorem map_eq_ok {x : Except ε α} {f : α → β} {b : β} :
    x.map f = .ok b ↔ ∃ a, x = .ok a ∧ f a = b := by
  cases x <;> simp [Except.map]

theorem mapError_eq_ok {δ : Type} {x : Except ε α} {f : ε → δ} {a : α} :
    x.mapError f = .ok a ↔ x = .ok a := by
  constructor
  · intro h
    cases x <;> cases h
    rfl
  · rintro rfl
    rfl

theorem map_eq_error {x : Except ε α} {f : α → β} {e : ε} :
    x.map f = .error e ↔ x = .error e := by
  cases x <;> simp [Except.map]

theorem toOption_eq_none {x : Except ε α} : x.toOption = none ↔ ∃ e, x = .error e := by
  cases x <;> simp [Except.toOption]

instance decEqResult [DecidableEq ε] [DecidableEq α] : DecidableEq (Except ε α)
  | .ok a,    .ok b    => decidable_of_iff (a = b) (by simp)
  | .error a, .error b => decidable_of_iff (a = b) (by simp)
  | .ok _,    .error _ => .isFalse nofun
  | .error _, .ok _    => .isFalse nofun

end SceneScript
