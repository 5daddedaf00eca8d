import SceneScript.Error
import SceneScript.Event
import SceneScript.Intermediate.ListLiteral
import SceneScript.Statement
import SceneScript.Text.Line

/-!
# Intermediate

The intermediate text: statements one a line, `var type name class [args]` or
`method receiver name [args]`.  `write` and `read` are its two directions; reading skips blank lines
and stops at the first line that holds no statement.
-/

namespace SceneScript.Intermediate

open Text

/-- A statement as a line, without its line feed. -/
def writeLine : Statement → String
  | .construct c =>
    "var " ++ c.varType ++ " " ++ c.varName ++ " " ++ c.className ++ " " ++
      String.ofList (ListLiteral.write c.args)
  | .invoke i    =>
    "method " ++ i.receiver ++ " " ++ i.methodName ++ " " ++
      String.ofList (ListLiteral.write i.args)

/-- Statements as an intermediate text. -/
def write (statements : List Statement) : String :=
  String.join (statements.map fun s => writeLine s ++ "\n")

/-- The first field of `s`, and what follows the blank after it. -/
def readField (s : List Char) : Option (String × List Char) :=
  match (trimStart s).dropWhile fun c => !isBlank c with
  | _ :: rest => some (String.ofList ((trimStart s).takeWhile fun c => !isBlank c), rest)
  | []        => none

/-- Reads a trimmed line. -/
def readLine (line : List Char) : Option Statement := do
  let (keyword, rest) ← readField line
  if keyword = "var" then
    let (varType, rest) ← readField rest
    let (varName, rest) ← readField rest
    let (className, rest) ← readField rest
    let args ← ListLiteral.read rest
    return .construct { varType, varName, className, args }
  else if keyword = "method" then
    let (receiver, rest) ← readField rest
    let (methodName, rest) ← readField rest
    let args ← ListLiteral.read rest
    return .invoke { receiver, methodName, args }
  else none

/-- Reads lines one after another, the first of which has number `n`. -/
def readLines (n : Nat) : List (List Char) → Except SyntaxError (List Statement)
  | []      => .ok []
  | l :: ls =>
    if (trim l).isEmpty then readLines (n + 1) ls
    else
      match readLine (trim l) with
      | some statement => (readLines (n + 1) ls).map (statement :: ·)
      | none           => .error ⟨n⟩

/-- The statements of an intermediate text. -/
def read (text : String) : Except SyntaxError (List Statement) :=
  readLines 1 (lines text.toList)

/-- What there is to report about a reading. -/
def log : Except SyntaxError (List Statement) → List Event
  | .ok statements => [.intermediateRead statements.length]
  | .error _       => []

end SceneScript.Intermediate
