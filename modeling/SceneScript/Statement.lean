/-!
# Statement

What a script says, one statement a line: an object is constructed, or a method is invoked on one.
`Statement.display` writes a statement the way a script would.
-/

namespace SceneScript

/-- `varType - varName ::= className (args)`: an object is made and named. -/
structure Construct where
  varType   : String
  varName   : String
  className : String
  args      : List String
  deriving DecidableEq, Repr

/-- `receiver -> methodName (args)`: a method of an object is called. -/
structure Invoke where
  receiver   : String
  methodName : String
  args       : List String
  deriving DecidableEq, Repr

/-- A statement of a script. -/
inductive Statement where
  | construct (c : Construct)
  | invoke (i : Invoke)
  deriving DecidableEq, Repr

namespace Statement

/-- The arguments, in order. -/
def args : Statement → List String
  | .construct c => c.args
  | .invoke i    => i.args

/-- The word that starts the statement's line in the intermediate text. -/
def keyword : Statement → String
  | .construct _ => "var"
  | .invoke _    => "method"

/-- The statement as a line of a script. -/
def display : Statement → String
  | .construct c =>
    c.varType ++ " - " ++ c.varName ++ " ::= " ++ c.className ++
      " (" ++ " ".intercalate c.args ++ ")"
  | .invoke i    =>
    i.receiver ++ " -> " ++ i.methodName ++ " (" ++ " ".intercalate i.args ++ ")"

end Statement

end SceneScript
