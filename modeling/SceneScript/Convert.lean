import SceneScript.Intermediate
import SceneScript.Registry
import SceneScript.Script

/-!
# Convert

Whole conversions.  A script goes through its statements to a target, which is the intermediate text
or a registered language; an intermediate text goes to a registered language.  An unknown target is
reported before the text is looked at.
-/

namespace SceneScript

/-- Where a conversion ends. -/
inductive Target where
  | intermediate
  | language (id : String)
  deriving DecidableEq, Repr

namespace Target

instance : Inhabited Target := ⟨.intermediate⟩

/-- The target that an identifier names. -/
def ofId (id : String) : Target :=
  if id = intermediateId then .intermediate else .language id

/-- The identifier of a target. -/
def id : Target → String
  | .intermediate => intermediateId
  | .language id  => id

/-- How statements are written for a target. -/
def writer (registry : Registry) : Target → Except ConvertError (List Statement → String)
  | .intermediate => .ok Intermediate.write
  | .language id  =>
    match registry.get? id with
    | some rules => .ok rules.render
    | none       => .error (.unsupportedTarget id)

end Target

/-- Converts a script. -/
def convertSource (source : String) (target : Target) (registry : Registry) :
    Logged (Except ConvertError String) :=
  match target.writer registry with
  | .error e => ⟨.error e, []⟩
  | .ok write => (normalize source).map fun
    | .ok statements => .ok (write statements)
    | .error e       => .error (.malformed e)

/-- Converts an intermediate text. -/
def convertIntermediate (text : String) (id : String) (registry : Registry) :
    Logged (Except ConvertError String) :=
  match registry.get? id with
  | none       => ⟨.error (.unsupportedTarget id), []⟩
  | some rules =>
    let read := Intermediate.read text
    match read with
    | .ok statements => ⟨.ok (rules.render statements), Intermediate.log read⟩
    | .error e       => ⟨.error (.malformed e), Intermediate.log read⟩

end SceneScript
