import SceneScript.Host
import SceneScript.Registry
import SceneScript.RuleFile.Yaml

/-!
# Registry — Load

The registry for a run: the built-in targets, with a rule file over them if one is named.
-/

namespace SceneScript

/-- Why a rule file could not be used. -/
inductive LoadError where
  | unreadable (path : String) (cause : FileError)
  | malformed (cause : Yaml.Error)
  | invalid (faults : List RuleFault)
  deriving Repr

/-- The wording of a load error. -/
def LoadError.message : LoadError → String
  | .unreadable path cause => s!"failed to read {path}: " ++ cause.message
  | .malformed cause       => "YAML parse error: " ++ cause.message
  | .invalid faults        => RuleFault.summary faults

variable {m : Type → Type} [Monad m] [Host m]

/-- The rule file that a path names. -/
def RuleFile.load (path : String) : ExceptT LoadError m RuleFile := do
  match ← Host.read path with
  | .error cause => throw (.unreadable path cause)
  | .ok text     =>
    match RuleFile.ofYaml text with
    | .error cause => throw (.malformed cause)
    | .ok file     => return file

/-- The registry with a rule file over it. -/
def Registry.withRules (r : Registry) (file : RuleFile) : ExceptT LoadError m Registry := do
  match ← reporting ⟨r.layer file, r.layerEvents file⟩ with
  | .error faults => throw (.invalid faults)
  | .ok registry  => return registry

/-- The built-in targets, with the rule file of a path over them if there is one. -/
def Registry.load (rules : Option String) : ExceptT LoadError m Registry := do
  match rules with
  | none      => return .builtin
  | some path =>
    let file ← RuleFile.load path
    Registry.builtin.withRules file

end SceneScript
