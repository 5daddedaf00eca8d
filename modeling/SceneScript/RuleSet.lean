import SceneScript.Table
import SceneScript.Template

/-!
# RuleSet

How a target language is written: a text before all statements, a template for each kind of
statement, and a text after them.  A rule file holds rule sets under their target identifiers and is
checked as a whole (`RuleFile.faults`) before any of them is used.
-/

namespace SceneScript

open Text

/-- The rules of a target language. -/
structure RuleSet where
  start     : String := ""
  /-- The template of a construction. -/
  construct : String
  /-- The template of a call. -/
  invoke    : String
  finish    : String := ""
  deriving DecidableEq, Repr

/-- The rules of a target language, with their templates compiled. -/
structure CompiledRules where
  start     : String
  construct : Template ConstructField
  invoke    : Template InvokeField
  finish    : String
  deriving DecidableEq, Repr

/-- Compiles both templates. -/
def RuleSet.compile (r : RuleSet) : Except TemplateError CompiledRules := do
  let construct ← Template.compile r.construct
  let invoke ← Template.compile r.invoke
  return { start := r.start, construct, invoke, finish := r.finish }

namespace CompiledRules

/-- One statement in the target language. -/
def renderStatement (r : CompiledRules) : Statement → String
  | .construct c => r.construct.expand c
  | .invoke i    => r.invoke.expand i

/-- Puts one statement behind a text. -/
def append (r : CompiledRules) (out : String) (statement : Statement) : String :=
  out ++ r.renderStatement statement

/-- Statements in the target language: its start, one statement after another, and its end. -/
def render (r : CompiledRules) (statements : List Statement) : String :=
  statements.foldl r.append r.start ++ r.finish

end CompiledRules

/-- A rule file: its version, and rule sets under target identifiers. -/
structure RuleFile where
  version : String
  rules   : Table RuleSet := {}
  deriving Repr

/-- The identifier that stands for the intermediate text. -/
def intermediateId : String := "txt"

/-- The one version a rule file may have. -/
def ruleFileVersion : String := "1.0"

/-- Something wrong with a rule file. -/
inductive RuleFault where
  | version (found : String)
  | blankTarget
  | reservedTarget (id : String)
  | constructTemplate (id : String) (e : TemplateError)
  | invokeTemplate (id : String) (e : TemplateError)
  /-- A rule set without a fault of its own does not compile. -/
  | uncompiled (id : String) (e : TemplateError)
  deriving DecidableEq, Repr

/-- The wording of a fault. -/
def RuleFault.message : RuleFault → String
  | .version found          =>
    "version must be \"" ++ ruleFileVersion ++ "\", got \"" ++ found ++ "\""
  | .blankTarget            => "target identifier must not be empty"
  | .reservedTarget id      => s!"target '{id}' is reserved for intermediate output"
  | .constructTemplate id e => s!"target '{id}' var template: {e.message}"
  | .invokeTemplate id e    => s!"target '{id}' method template: {e.message}"
  | .uncompiled id e        => s!"target '{id}': {e.message}"

/-- What is wrong with one entry of a rule file. -/
def RuleFile.entryFaults (id : String) (r : RuleSet) : List RuleFault :=
  (if (trim id.toList).isEmpty then [.blankTarget] else []) ++
  (if id = intermediateId then [.reservedTarget id] else []) ++
  (match Template.compile (φ := ConstructField) r.construct with
    | .ok _    => []
    | .error e => [.constructTemplate id e]) ++
  (match Template.compile (φ := InvokeField) r.invoke with
    | .ok _    => []
    | .error e => [.invokeTemplate id e])

/-- Everything wrong with a rule file, in order. -/
def RuleFile.faults (f : RuleFile) : List RuleFault :=
  (if f.version = ruleFileVersion then [] else [.version f.version]) ++
  f.rules.entries.flatMap fun e => entryFaults e.1 e.2

end SceneScript
