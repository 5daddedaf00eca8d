/-!
# Table

Values under names, in the order in which the names first came up.  A name that comes up again
takes the new value and keeps its place, so no name stands twice (`Table.nodup`).
-/

namespace SceneScript

/-- Puts `a` under `key` in a list of entries. -/
def Table.put {α : Type} (key : String) (a : α) : List (String × α) → List (String × α)
  | []      => [(key, a)]
  | e :: es => if e.1 = key then (key, a) :: es else e :: put key a es

/-- A known name keeps its place, and a new one comes last. -/
theorem Table.map_fst_put {α : Type} (key : String) (a : α) (es : List (String × α)) :
    (put key a es).map (·.1) =
      if key ∈ es.map (·.1) then es.map (·.1) else es.map (·.1) ++ [key] := by
  induction es with
  | nil => simp [put]
  | cons e es ih =>
      by_cases h : e.1 = key
      · simp [put, h]
      · simp only [put, h, if_false, List.map_cons, ih, List.mem_cons, Ne.symm h, false_or]
        split <;> rfl

theorem Table.nodup_put {α : Type} (key : String) (a : α) {es : List (String × α)}
    (h : (es.map (·.1)).Nodup) : ((put key a es).map (·.1)).Nodup := by
  rw [map_fst_put]
  split
  · exact h
  · next hk =>
      refine List.nodup_append.mpr ⟨h, by simp, fun x hx y hy e => ?_⟩
      rw [List.mem_singleton.mp hy] at e
      exact hk (e ▸ hx)

/-- Values under names, in order. -/
structure Table (α : Type) where
  entries : List (String × α) := []
  /-- No name stands twice. -/
  nodup   : (entries.map (·.1)).Nodup := by simp
  deriving Repr

namespace Table

variable {α : Type}

/-- Puts `a` under `key`. -/
def insert (t : Table α) (key : String) (a : α) : Table α :=
  ⟨put key a t.entries, nodup_put key a t.nodup⟩

/-- Puts a list of entries into an empty table, one after another. -/
def ofList (es : List (String × α)) : Table α :=
  es.foldl (fun t e => t.insert e.1 e.2) {}

/-- The value under `key`. -/
def get? (t : Table α) (key : String) : Option α :=
  (t.entries.find? fun e => e.1 = key).map (·.2)

/-- There is a value under `key`. -/
def contains (t : Table α) (key : String) : Bool :=
  t.entries.any fun e => e.1 = key

/-- The names, in order. -/
def keys (t : Table α) : List String :=
  t.entries.map (·.1)

/-- How many names there are. -/
def size (t : Table α) : Nat :=
  t.entries.length

/-- There are no names. -/
def isEmpty (t : Table α) : Bool :=
  t.entries.isEmpty

end Table

end SceneScript
