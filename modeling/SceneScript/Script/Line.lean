import SceneScript.Argument
import SceneScript.Statement
import SceneScript.Text.Cut

/-!
# Script — Line

One line of a script, trimmed and not blank.  The marker ` ::= ` before the first `(` makes it a
construction, else the marker ` -> ` there makes it a call; any other line says nothing.  A line
with a marker has to be well formed: the reader gives the statement or the first thing wrong with
it, and looks at the argument list before the names.
-/

namespace SceneScript

open Text

/-- The places of a statement that hold a name. -/
inductive NameField where
  | varType
  | varName
  | className
  | receiver
  | methodName
  deriving DecidableEq, Repr

/-- What a place is called in a message. -/
def NameField.label : NameField → String
  | .varType    => "type"
  | .varName    => "variable name"
  | .className  => "class name"
  | .receiver   => "receiver"
  | .methodName => "method name"

/-- Why a line with a marker was refused. -/
inductive LineError where
  /-- A construction has no `-` between type and variable name. -/
  | missingSeparator
  | emptyName (field : NameField)
  | blankInName (field : NameField)
  | quoteInName (field : NameField)
  | arguments (e : ArgumentError)
  deriving DecidableEq, Repr

/-- The wording of a line error. -/
def LineError.message : LineError → String
  | .missingSeparator  => "missing '-'"
  | .emptyName field   => field.label ++ " is empty"
  | .blankInName field => field.label ++ " contains whitespace"
  | .quoteInName field => field.label ++ " contains a quote"
  | .arguments e       => e.message

namespace Line

/-- Marks a construction. -/
def constructMark : List Char := [' ', ':', ':', '=', ' ']

/-- Marks a call. -/
def invokeMark : List Char := [' ', '-', '>', ' ']

/-- Stands between the type and the variable name of a construction. -/
def typeMark : List Char := [' ', '-', ' ']

/-- Reads the name in place `field`: what is left of `s` once trimmed, if that is not empty and
holds neither a blank nor a quote. -/
def readName (field : NameField) (s : List Char) : Except LineError String :=
  if (trim s).isEmpty then .error (.emptyName field)
  else if (trim s).any isBlank then .error (.blankInName field)
  else if (trim s).any isQuote then .error (.quoteInName field)
  else .ok (String.ofList (trim s))

/-- Splits `name (args)` at its first `(` and reads the arguments. -/
def readCall (s : List Char) : Except LineError (List Char × List String) :=
  match Argument.read ((trim s).dropWhile (· ≠ '(')) with
  | .ok args => .ok ((trim s).takeWhile (· ≠ '('), args)
  | .error e => .error (.arguments e)

/-- Reads `type - name ::= class (args)`. -/
def readConstruct (s : List Char) : Except LineError Statement := do
  let some (decl, call) := cut constructMark s | throw .missingSeparator
  let some (varType, varName) := cut typeMark decl | throw .missingSeparator
  let (className, args) ← readCall call
  let varType ← readName .varType varType
  let varName ← readName .varName varName
  let className ← readName .className className
  return .construct { varType, varName, className, args }

/-- Reads `receiver -> method (args)`. -/
def readInvoke (s : List Char) : Except LineError Statement := do
  let some (receiver, call) := cut invokeMark s | throw .missingSeparator
  let (methodName, args) ← readCall call
  let receiver ← readName .receiver receiver
  let methodName ← readName .methodName methodName
  return .invoke { receiver, methodName, args }

/-- The line with a space at either end, so that a marker at its edge still counts as one. -/
def pad (line : List Char) : List Char :=
  ' ' :: (line ++ [' '])

/-- The part of a line in which markers count. -/
def head (s : List Char) : List Char :=
  s.takeWhile (· ≠ '(')

/-- Reads a line: a statement, nothing, or an error. -/
def read (line : List Char) : Except LineError (Option Statement) :=
  if holds constructMark (head (pad line)) then (readConstruct (pad line)).map some
  else if holds invokeMark (head (pad line)) then (readInvoke (pad line)).map some
  else .ok none

end Line

end SceneScript
