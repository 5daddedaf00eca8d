import SceneScript.Event
import SceneScript.Text.Visible

/-!
# Event — Line

Events as lines of a log: the level, who reports it, what it says, and its values by name.  What an
event says cannot steer the terminal.
-/

namespace SceneScript

/-- A value as a log line shows it. -/
def EventValue.shown : EventValue → String
  | .text s   => s
  | .quoted s => Text.quoted s
  | .number n => toString n

/-- The name of a level, right-aligned to five characters. -/
def Level.aligned (l : Level) : String :=
  String.ofList (List.replicate (5 - l.name.length) ' ') ++ l.name

namespace Event

/-- The event as a line of a log, with its line break. -/
def line (e : Event) : String :=
  let values := e.fields.map fun f => " " ++ f.1 ++ "=" ++ f.2.shown
  let said := Text.harmless e.message ++ String.join values
  e.level.aligned ++ " " ++ e.reporter ++ ": " ++ said ++ "\n"

/-- The log of events at a verbosity. -/
def log (verbosity : Nat) (events : List Event) : String :=
  String.join ((events.filter (shownAt verbosity)).map line)

end Event

end SceneScript
