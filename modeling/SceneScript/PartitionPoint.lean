/-!
# PartitionPoint

Binary search in an array whose elements satisfy a condition up to some index and not from there on.
The index found is one up to which elements can be counted, so it is at most the size of the array.
-/

namespace SceneScript

variable {α : Type}

/-- Searches between `lo` and `hi`, where all elements before `lo` satisfy `p` and none from `hi` on
does. -/
def partitionPointIn (xs : Array α) (p : α → Bool) (lo hi : Nat) (hlo : lo ≤ hi)
    (hhi : hi ≤ xs.size) : Fin (xs.size + 1) :=
  if h : lo < hi then
    have hmid : (lo + hi) / 2 < xs.size := by omega
    if p xs[(lo + hi) / 2] then
      partitionPointIn xs p ((lo + hi) / 2 + 1) hi (by omega) hhi
    else
      partitionPointIn xs p lo ((lo + hi) / 2) (by omega) (Nat.le_of_lt hmid)
  else ⟨lo, Nat.lt_succ_of_le (Nat.le_trans hlo hhi)⟩
termination_by hi - lo

/-- The number of elements at the front of an array that satisfy `p`, if no others do. -/
def partitionPoint (xs : Array α) (p : α → Bool) : Fin (xs.size + 1) :=
  partitionPointIn xs p 0 xs.size (Nat.zero_le _) (Nat.le_refl _)

end SceneScript
