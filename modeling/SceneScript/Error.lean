/-!
# Error

The errors a conversion can end with, and their wording.
-/

namespace SceneScript

/-- A line that should hold a statement does not.  Lines are counted from 1, in the text as it
was given. -/
structure SyntaxError where
  line : Nat
  deriving DecidableEq, Repr

/-- The wording of a syntax error. -/
def SyntaxError.message (e : SyntaxError) : String :=
  s!"SyntaxError at line {e.line}"

/-- Why a conversion failed. -/
inductive ConvertError where
  | malformed (e : SyntaxError)
  /-- No rules are registered under this identifier. -/
  | unsupportedTarget (id : String)
  deriving DecidableEq, Repr

/-- The wording of a conversion error. -/
def ConvertError.message : ConvertError → String
  | .malformed e          => e.message
  | .unsupportedTarget id => s!"can't convert to '{id}': unsupported target language"

end SceneScript
