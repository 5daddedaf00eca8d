import SceneScript.Command.Outcome

/-!
# Main

The program on the system itself: the requests of a command are carried out as they come.
-/

namespace SceneScript

/-- The cause of a system error.  Its number comes with either sign. -/
def FileError.ofSystem (e : IO.Error) : FileError :=
  match e with
  | .noFileOrDirectory ..       => .notFound
  | .inappropriateType _ code _ => numbered code
  | .invalidArgument _ code _   => numbered code
  | _                           => .other (toString e)
where
  numbered (code : UInt32) : FileError :=
    match min code.toNat (UInt32.size - code.toNat) with
    | 20 => .notDirectory
    | 21 => .isDirectory
    | 36 => .nameTooLong
    | _  => .other (toString e)

/-- The text of a file of the system. -/
def readSystemFile (path : String) : IO (Except FileError String) := do
  try
    return textOfBytes (← IO.FS.readBinFile path)
  catch e => return .error (.ofSystem e)

/-- Makes a text the content of a file of the system. -/
def writeSystemFile (path text : String) : IO (Except FileError Unit) := do
  try
    IO.FS.writeBinFile path text.toUTF8
    return .ok ()
  catch e => return .error (.ofSystem e)

/-- Something is in the way of a new file of the system. -/
def containsSystemFile (path : String) : IO Bool := do
  match ← readSystemFile path with
  | .error .notFound | .error .notDirectory | .error .nameTooLong | .error .nulInPath =>
    return false
  | _ => return true

/-- The system itself, with a verbosity for what is reported. -/
instance : Host (ReaderT Nat IO) where
  read path       := readSystemFile path
  contains path   := containsSystemFile path
  write path text := writeSystemFile path text
  print text      := IO.print text
  report event    := do IO.eprint (Event.log (← MonadReader.read) [event])

/-- Leaves behind what there is where nothing was run. -/
def Outcome.emit (o : Outcome) : IO UInt32 := do
  IO.eprint o.errors
  IO.print o.output
  return o.exit.toUInt32

end SceneScript

/-- The program. -/
def main (words : List String) : IO UInt32 := do
  match SceneScript.Invocation.read words with
  | .error stop => (SceneScript.Outcome.ofStop stop).emit
  | .ok i       =>
    let action : ExceptT String (ReaderT Nat IO) Unit := i.command.run
    match ← action.run.run i.verbosity with
    | .ok _          => return 0
    | .error message =>
      IO.eprint s!"error: {message}\n"
      return 1
