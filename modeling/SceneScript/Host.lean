import SceneScript.Event
import SceneScript.FileTree

/-!
# Host

What a command asks of the system that it runs on: to read and write files, to print, and to report
events.  Each request is made where it stands in the command, and what was done before a failure
stays done.

* `Host`: a monad in which these requests can be made.
* `World`: a system as a value, with its files and all that was printed and reported so far.
-/

namespace SceneScript

/-- A monad with the requests that a command makes. -/
class Host (m : Type → Type) where
  /-- The text of a file. -/
  read     : String → m (Except FileError String)
  /-- Something stands at the end of a path. -/
  contains : String → m Bool
  /-- Makes a text the whole content of a file. -/
  write    : String → String → m (Except FileError Unit)
  /-- Prints a text to the standard output. -/
  print    : String → m Unit
  /-- Reports an event. -/
  report   : Event → m Unit

section Lift

variable {ε : Type} {m : Type → Type} [Monad m] [Host m]

instance : Host (ExceptT ε m) where
  read path       := ExceptT.lift (Host.read path)
  contains path   := ExceptT.lift (Host.contains path)
  write path text := ExceptT.lift (Host.write path text)
  print text      := ExceptT.lift (Host.print text)
  report event    := ExceptT.lift (Host.report event)

/-- Prints a text and a line break. -/
def printLine (text : String) : m Unit :=
  Host.print (text ++ "\n")

/-- Reports what there was to report on the way to a value, and goes on with the value. -/
def reporting {α : Type} (x : Logged α) : m α := do
  x.events.forM Host.report
  return x.value

end Lift

/-- A system as a value. -/
structure World where
  files  : FileTree := {}
  /-- All that was printed. -/
  output : String := ""
  /-- All that was reported. -/
  events : Array Event := #[]

namespace World

/-- The world after a request to write. -/
def write (w : World) (path text : String) : Except FileError Unit × World :=
  match w.files.write path text with
  | .ok files    => (.ok (), { w with files })
  | .error cause => (.error cause, w)

/-- The world after a text was printed. -/
def print (w : World) (text : String) : World :=
  { w with output := w.output ++ text }

/-- The world after an event was reported. -/
def report (w : World) (event : Event) : World :=
  { w with events := w.events.push event }

instance : Host (StateM World) where
  read path       := do return (← get).files.read path
  contains path   := do return (← get).files.contains path
  write path text := modifyGet (·.write path text)
  print text      := modify (·.print text)
  report event    := modify (·.report event)

/-- Does something in a world: what comes of it, and the world after it, also if it failed. -/
def perform {ε α : Type} (w : World) (x : ExceptT ε (StateM World) α) : Except ε α × World :=
  x.run.run w

end World

end SceneScript
