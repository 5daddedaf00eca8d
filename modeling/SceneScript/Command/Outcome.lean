import SceneScript.Command.Help
import SceneScript.Event.Line

/-!
# Command — Outcome

What a run of the program leaves behind: an exit code, and what it writes to its two outputs.
-/

namespace SceneScript

/-- What a run of the program leaves behind, besides files. -/
structure Outcome where
  exit   : Nat := 0
  output : String := ""
  errors : String := ""
  deriving DecidableEq, Repr

/-- Where nothing was run: help and version are printed, and anything else is a mistake of the
caller. -/
def Outcome.ofStop : Stop → Outcome
  | .help about => { output := helpText about }
  | .version    => { output := s!"{programName} {programVersion}\n" }
  | stop        => { exit := 2, errors := s!"error: {stop.message}\n\n" ++ usageLine none }

/-- Where a command was run: what it printed, and the log before the error it may have ended
with. -/
def Outcome.ofRun (verbosity : Nat) (result : Except String Unit) (w : World) : Outcome :=
  let log := Event.log verbosity w.events.toList
  match result with
  | .ok _          => { output := w.output, errors := log }
  | .error message => { exit := 1, output := w.output, errors := log ++ s!"error: {message}\n" }

/-- Runs the program with the words of a command line on a tree of files. -/
def runProgram (files : FileTree) (words : List String) : FileTree × Outcome :=
  match Invocation.read words with
  | .error stop => (files, .ofStop stop)
  | .ok i       =>
    let (result, after) := ({ files } : World).perform i.command.run
    (after.files, .ofRun i.verbosity result after)

end SceneScript
