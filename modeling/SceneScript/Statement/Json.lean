import SceneScript.Json.Reader
import SceneScript.Statement

/-!
# Statement — Json

Statements as JSON.  A statement is an object whose field `kind` tells a construction from a call;
the other fields go by name, the arguments may be left out, and unknown fields are skipped.  A
known field given twice is an error.  A statement may also be an array of its kind and its fields
in order.
-/

namespace SceneScript.Statement

open Json (string array object)

/-- A list of texts as a JSON array. -/
def jsonOfStrings (xs : List String) : Json :=
  array (xs.map string)

/-- A statement as a JSON object. -/
def toJson : Statement → Json
  | .construct c =>
    object [("kind", string "construct"), ("var_type", string c.varType),
      ("var_name", string c.varName), ("class_name", string c.className),
      ("args", jsonOfStrings c.args)]
  | .invoke i    =>
    object [("kind", string "invoke"), ("receiver", string i.receiver),
      ("method_name", string i.methodName), ("args", jsonOfStrings i.args)]

/-- Statements as JSON text, as the command line prints them. -/
def listToJson (statements : List Statement) : String :=
  String.ofList (Json.pretty 0 (array (statements.map toJson)))

/-- A JSON string. -/
def string? : Json → Option String
  | .string s => some s
  | _         => none

/-- A JSON array of strings. -/
def strings? : Json → Option (List String)
  | .array items => items.mapM string?
  | _            => none

/-- The value of a field that has to be there once. -/
def required (fields : List (String × Json)) (key : String) : Option Json :=
  match fields.filter (·.1 = key) with
  | [(_, v)] => some v
  | _        => none

/-- The arguments among fields; they may be left out. -/
def argsOf (fields : List (String × Json)) : Option (List String) :=
  match fields.filter (·.1 = "args") with
  | []       => some []
  | [(_, v)] => strings? v
  | _        => none

/-- A statement of a kind, with its fields by name. -/
def ofFields (kind : String) (fields : List (String × Json)) : Option Statement := do
  if kind = "construct" then
    let varType ← string? (← required fields "var_type")
    let varName ← string? (← required fields "var_name")
    let className ← string? (← required fields "class_name")
    return .construct { varType, varName, className, args := ← argsOf fields }
  else if kind = "invoke" then
    let receiver ← string? (← required fields "receiver")
    let methodName ← string? (← required fields "method_name")
    return .invoke { receiver, methodName, args := ← argsOf fields }
  else none

/-- A statement of a kind, with its fields in order. -/
def ofItems (kind : String) (items : List Json) : Option Statement := do
  if kind = "construct" then
    match items with
    | varType :: varName :: className :: rest =>
      return .construct
        { varType := ← string? varType, varName := ← string? varName
          className := ← string? className, args := ← lastArgs rest }
    | _ => none
  else if kind = "invoke" then
    match items with
    | receiver :: methodName :: rest =>
      return .invoke
        { receiver := ← string? receiver, methodName := ← string? methodName
          args := ← lastArgs rest }
    | _ => none
  else none
where
  /-- The arguments as the last item, or left out. -/
  lastArgs : List Json → Option (List String)
    | []  => some []
    | [v] => strings? v
    | _   => none

/-- The statement that a JSON value stands for. -/
def ofJson : Json → Option Statement
  | .object fields =>
    match required fields "kind" with
    | some (.string kind) => ofFields kind fields
    | _                   => none
  | .array (.string kind :: items) => ofItems kind items
  | _ => none

/-- The statements that a JSON array stands for. -/
def listOfValue : Json → Option (List Statement)
  | .array items => items.mapM ofJson
  | _            => none

/-- The statements of a JSON text, which holds a list of them. -/
def listOfJson (text : String) : Option (List Statement) :=
  (Json.read text).bind listOfValue

end SceneScript.Statement
