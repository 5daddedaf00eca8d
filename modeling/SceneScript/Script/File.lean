import SceneScript.Host
import SceneScript.Script

/-!
# Script — File

Scripts and other inputs that stand in files.  A refusal names the file.
-/

namespace SceneScript

variable {m : Type → Type} [Monad m] [Host m]

/-- The text of an input file. -/
def readInput (path : String) : ExceptT String m String := do
  match ← Host.read path with
  | .ok text     => return text
  | .error cause => throw s!"failed to read {path}: {cause.message}"

/-- Goes on with what became of the text of a file; what is refused about it is put down to the
file. -/
def orRefuse {ε α : Type} (path : String) (message : ε → String) (x : Logged (Except ε α)) :
    ExceptT String m α := do
  match ← reporting x with
  | .ok a    => return a
  | .error e => throw s!"{path}: {message e}"

/-- The statements of the script in a file. -/
def normalizeFile (path : String) : ExceptT String m (List Statement) := do
  let source ← readInput path
  orRefuse path SyntaxError.message (normalize source)

end SceneScript
