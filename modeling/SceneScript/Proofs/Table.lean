import SceneScript.Table

/-!
# Proofs — Table

A table seen through its names.  Putting a value under a name changes what stands under that name
and nothing else (`get?_insert_self`, `get?_insert_of_ne`); it adds the name at the end if it is new
(`keys_insert`).  A value that is found is that of an entry (`mem_entries_of_get?`), and none is found
exactly under the names that are missing (`get?_eq_none`).
-/

namespace SceneScript.Table

variable {α : Type} {t : Table α} {key other : String} {a : α}

theorem keys_insert (t : Table α) (key : String) (a : α) :
    (t.insert key a).keys = if key ∈ t.keys then t.keys else t.keys ++ [key] :=
  map_fst_put key a t.entries

theorem contains_iff : t.contains key = true ↔ key ∈ t.keys := by
  simp [contains, keys]

theorem get?_eq_none : t.get? key = none ↔ key ∉ t.keys := by
  rw [← contains_iff, contains, get?, Option.map_eq_none_iff, List.find?_eq_none,
    Bool.not_eq_true, List.any_eq_false]

theorem mem_entries_of_get? (h : t.get? key = some a) : (key, a) ∈ t.entries := by
  obtain ⟨e, he, rfl⟩ := Option.map_eq_some_iff.mp h
  have hk : e.1 = key := by simpa using List.find?_some he
  exact hk ▸ List.mem_of_find?_eq_some he

theorem get?_insert_self (t : Table α) (key : String) (a : α) :
    (t.insert key a).get? key = some a := by
  have h (es : List (String × α)) : ((put key a es).find? fun e => e.1 = key) = some (key, a) := by
    induction es with
    | nil => simp [put]
    | cons e es ih => by_cases he : e.1 = key <;> simp [put, he, ih]
  simp [get?, insert, h]

theorem get?_insert_of_ne (h : other ≠ key) (t : Table α) (a : α) :
    (t.insert key a).get? other = t.get? other := by
  have hp (es : List (String × α)) :
      ((put key a es).find? fun e => e.1 = other) = es.find? fun e => e.1 = other := by
    induction es with
    | nil => simp [put, h.symm]
    | cons e es ih =>
        by_cases he : e.1 = key
        · simp [put, he, h.symm]
        · simp only [put, he, if_false, List.find?_cons, ih]
  simp [get?, insert, hp]

end SceneScript.Table
