import SceneScript.Command
import SceneScript.Proofs.Json.RoundTrip

/-!
# Proofs — Statement — Json

Statements come back from their JSON, whatever their names and arguments hold (`json_faithful`).

As a value, a statement is an object whose field `kind` tells which fields are to be looked for
(`ofJson_toJson`).  The text of a list of statements goes three levels deep, far less than a reader
allows (`fits_toJson`), so it gives those values back (`read_listToJson`).
-/

namespace SceneScript.Statement

/-- What is written one by one is read one by one. -/
theorem mapM_map_eq_some {α β : Type} {write : α → β} {read : β → Option α}
    (h : ∀ a, read (write a) = some a) (xs : List α) : (xs.map write).mapM read = some xs := by
  induction xs with
  | nil => rfl
  | cons x xs ih => rw [List.map_cons, List.mapM_cons, h, ih]; rfl

theorem strings?_jsonOfStrings (xs : List String) : strings? (jsonOfStrings xs) = some xs := by
  have hone (x : String) : string? (.string x) = some x := rfl
  rw [jsonOfStrings, strings?, mapM_map_eq_some hone]

/-- **A statement is what its value stands for.** -/
theorem ofJson_toJson (st : Statement) : ofJson st.toJson = some st := by
  cases st with
  | construct c =>
      simp [toJson, ofJson, required, ofFields, argsOf, string?, strings?_jsonOfStrings]
  | invoke i =>
      simp [toJson, ofJson, required, ofFields, argsOf, string?, strings?_jsonOfStrings]

/-- A statement is an object with an array of strings in it. -/
theorem fits_toJson (st : Statement) (n : Nat) : Json.Fits (n + 2) st.toJson := by
  have hargs (xs : List String) : Json.Fits (n + 1) (jsonOfStrings xs) := by
    intro v hv
    obtain ⟨x, -, rfl⟩ := List.mem_map.mp hv
    simp [Json.Fits]
  cases st with
  | construct c =>
      simp only [toJson, Json.Fits, List.forall_mem_cons]
      exact ⟨trivial, trivial, trivial, trivial, hargs c.args, nofun⟩
  | invoke i =>
      simp only [toJson, Json.Fits, List.forall_mem_cons]
      exact ⟨trivial, trivial, trivial, hargs i.args, nofun⟩

/-- **The text of statements holds their values**, in order, also with blanks after it. -/
theorem read_listToJson (S : List Statement) (after : List Char)
    (hafter : ∀ c ∈ after, Json.isSpace c) :
    Json.read (listToJson S ++ String.ofList after) = some (.array (S.map toJson)) := by
  have hfits : Json.Fits Json.maxDepth (.array (S.map toJson)) := by
    intro v hv
    obtain ⟨st, -, rfl⟩ := List.mem_map.mp hv
    exact fits_toJson st 124
  rw [listToJson, ← String.ofList_append, Json.read_pretty hfits hafter]

theorem listOfJson_listToJson (S : List Statement) (after : List Char)
    (hafter : ∀ c ∈ after, Json.isSpace c) :
    listOfJson (listToJson S ++ String.ofList after) = some S := by
  rw [listOfJson, read_listToJson S after hafter, Option.bind_some, listOfValue,
    mapM_map_eq_some ofJson_toJson]

/-- **Statements come back from their JSON**, whatever their names and arguments hold, and whether
the text stands alone or is printed with a line break after it.  So what is written for a script
gives the statements of the script back. -/
theorem json_faithful :
    (∀ S : List Statement,
      listOfJson (listToJson S) = some S ∧ listOfJson (listToJson S ++ "\n") = some S) ∧
    ∀ source : String,
      (scriptToJson source).value.map listOfJson = (normalize source).value.map some := by
  have hplain (S : List Statement) : listOfJson (listToJson S) = some S := by
    have h := listOfJson_listToJson S [] nofun
    rwa [String.ofList_nil, String.append_empty] at h
  refine ⟨fun S => ⟨hplain S, ?_⟩, fun source => ?_⟩
  · exact listOfJson_listToJson S ['\n'] (List.forall_mem_singleton.mpr rfl)
  · simp only [scriptToJson, Logged.map]
    cases (normalize source).value with
    | error e => rfl
    | ok S => simp only [Except.map, hplain]

end SceneScript.Statement
