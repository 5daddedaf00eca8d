import SceneScript.PartitionPoint

/-!
# Proofs — PartitionPoint

Where an array is a part that satisfies a condition, followed by a part that does not, binary search
finds the seam between the two (`partitionPoint_eq`).  The range that is left to search always
contains it (`partitionPointIn_eq`).
-/

namespace SceneScript

variable {α : Type} {xs : Array α} {p : α → Bool} {ys zs : List α}

/-- **The range searched always holds the seam.** -/
theorem partitionPointIn_eq (h : xs.toList = ys ++ zs) (hy : ∀ y ∈ ys, p y) (hz : ∀ z ∈ zs, ¬ p z)
    {lo hi : Nat} (hlo : lo ≤ hi) (hhi : hi ≤ xs.size) (h₁ : lo ≤ ys.length)
    (h₂ : ys.length ≤ hi) : partitionPointIn xs p lo hi hlo hhi = ys.length := by
  have hget (i : Nat) (hi : i < xs.size) : p xs[i] ↔ i < ys.length := by
    have he : xs[i] = xs.toList[i] := (Array.getElem_toList hi).symm
    constructor
    · intro hp
      refine Nat.lt_of_not_le fun hle => hz xs[i] ?_ hp
      simp only [he, h, List.getElem_append_right hle]
      exact List.getElem_mem _
    · intro hlt
      refine hy xs[i] ?_
      simp only [he, h, List.getElem_append_left hlt]
      exact List.getElem_mem _
  fun_induction partitionPointIn xs p lo hi hlo hhi with
  | case1 lo hi hlo hhi hlt hmid hp ih => exact ih ((hget _ hmid).mp hp) h₂
  | case2 lo hi hlo hhi hlt hmid hp ih => exact ih h₁ (Nat.le_of_not_lt (mt (hget _ hmid).mpr hp))
  | case3 lo hi hlo hhi hlt => exact Nat.le_antisymm h₁ (Nat.le_trans h₂ (Nat.le_of_not_lt hlt))

/-- **Binary search finds the seam.** -/
theorem partitionPoint_eq (h : xs.toList = ys ++ zs) (hy : ∀ y ∈ ys, p y) (hz : ∀ z ∈ zs, ¬ p z) :
    partitionPoint xs p = ys.length := by
  have hlen : xs.size = ys.length + zs.length := by
    rw [← Array.length_toList, h, List.length_append]
  exact partitionPointIn_eq h hy hz _ _ (Nat.zero_le _) (hlen ▸ Nat.le_add_right _ _)

end SceneScript
