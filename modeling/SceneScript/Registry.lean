import SceneScript.Error
import SceneScript.Event
import SceneScript.RuleSet

/-!
# Registry

The target languages a conversion can end in.  A registry starts empty or with the built-in
targets; a rule file is layered over it as a whole or not at all, and an entry for a known target
replaces its rules and keeps its place.
-/

namespace SceneScript

/-- Target languages under their identifiers, in order of first registration. -/
structure Registry where
  table : Table CompiledRules := {}
  deriving Repr

/-- The rules of the built-in target `cpp`. -/
def RuleSet.cpp : RuleSet where
  start     := "#include <GGEngine/headers/all.h>\nusing namespace gg;\n\nclass Game \x7b\npublic:"
  construct :=
    "\n\t\x7bvar_type\x7d* \x7bvar_name\x7d = new \x7bclass_name\x7d(\x7bargs\x7d);"
  invoke    := "\n\t\x7bvar_name\x7d->\x7bmethod_name\x7d(\x7bargs\x7d);"
  finish    := "\n\x7d;"

/-- The built-in targets. -/
def builtinRules : List (String × RuleSet) :=
  [("cpp", .cpp)]

namespace Registry

/-- A registry without targets. -/
def empty : Registry := {}

/-- Adds a target that compiles. -/
def register (r : Registry) (id : String) (rules : CompiledRules) : Registry :=
  ⟨r.table.insert id rules⟩

/-- Adds rule sets one after another, up to the first that does not compile. -/
def registerAll (r : Registry) : List (String × RuleSet) → Except RuleFault Registry
  | []            => .ok r
  | (id, s) :: es =>
    match s.compile with
    | .ok rules => (r.register id rules).registerAll es
    | .error e  => .error (.uncompiled id e)

/-- The registry of the built-in targets. -/
def builtin : Registry :=
  match empty.registerAll builtinRules with
  | .ok r    => r
  | .error _ => empty

/-- Layers a rule file over a registry; the faults if there are any. -/
def layer (r : Registry) (f : RuleFile) : Except (List RuleFault) Registry :=
  if f.faults.isEmpty then
    match r.registerAll f.rules.entries with
    | .ok r'   => .ok r'
    | .error e => .error [e]
  else .error f.faults

/-- What there is to report when a rule file is layered. -/
def layerEvents (r : Registry) (f : RuleFile) : List Event :=
  match r.layer f with
  | .ok _    => f.rules.keys.map .registered
  | .error _ => []

/-- The rules of a target. -/
def get? (r : Registry) (id : String) : Option CompiledRules :=
  r.table.get? id

/-- The target is registered. -/
def contains (r : Registry) (id : String) : Bool :=
  r.table.contains id

/-- The identifiers, in order of first registration. -/
def targets (r : Registry) : List String :=
  r.table.keys

/-- How many targets there are. -/
def size (r : Registry) : Nat :=
  r.table.size

/-- There are no targets. -/
def isEmpty (r : Registry) : Bool :=
  r.table.isEmpty

/-- Statements in the language of a registered target. -/
def render (r : Registry) (statements : List Statement) (id : String) :
    Logged (Except ConvertError String) :=
  match r.get? id with
  | none       => ⟨.error (.unsupportedTarget id), []⟩
  | some rules =>
    let text := rules.render statements
    ⟨.ok text, [.rendered id statements.length text.utf8ByteSize]⟩

end Registry

/-- The wording for a rule file with faults. -/
def RuleFault.summary (faults : List RuleFault) : String :=
  s!"{faults.length} validation error(s): " ++ "; ".intercalate (faults.map RuleFault.message)

end SceneScript
