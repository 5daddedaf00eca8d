/-!
# Text — Cut

Cutting a text at the first place where another one stands.
-/

namespace SceneScript.Text

/-- What stands before and after the first `mark` in `s`. -/
def cut (mark : List Char) : List Char → Option (List Char × List Char)
  | []      => if mark.isEmpty then some ([], []) else none
  | c :: cs =>
    match mark.isPrefixOf? (c :: cs) with
    | some rest => some ([], rest)
    | none      => (cut mark cs).map fun r => (c :: r.1, r.2)

/-- `mark` stands somewhere in `s`. -/
def holds (mark s : List Char) : Bool :=
  (cut mark s).isSome

end SceneScript.Text
