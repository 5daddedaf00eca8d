import SceneScript.Statement
import SceneScript.Text.Blank

/-!
# Proofs — Statement

The names of a statement, and the least that the intermediate text asks of them: a name is a word,
with something in it and no blank.  The arguments are free.
-/

namespace SceneScript

/-- A word: not empty, and without blanks. -/
def Text.IsWord (s : String) : Prop :=
  s ≠ "" ∧ ∀ c ∈ s.toList, isBlank c = false

instance (s : String) : Decidable (Text.IsWord s) :=
  have := List.decidableBAll (fun c => Text.isBlank c = false) s.toList
  instDecidableAnd

/-- The names in a statement, in the order in which they are written. -/
def Statement.names : Statement → List String
  | .construct c => [c.varType, c.varName, c.className]
  | .invoke i    => [i.receiver, i.methodName]

/-- Every name of the statement is a word. -/
def Statement.HasWords (s : Statement) : Prop :=
  ∀ n ∈ s.names, Text.IsWord n

instance (s : Statement) : Decidable s.HasWords :=
  List.decidableBAll Text.IsWord s.names

end SceneScript
