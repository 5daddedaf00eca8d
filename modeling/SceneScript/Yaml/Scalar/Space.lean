/-!
# Yaml — Scalar — Space

White space between the words of a scalar that may run over several lines.  Blanks on one line stay;
a single line break becomes a space; of several breaks the first goes and the others stay.
-/

namespace SceneScript.Yaml

/-- The white space since the last word of a scalar. -/
inductive Space where
  /-- None: the last character belongs to a word. -/
  | none
  /-- Blanks on one line. -/
  | blanks (bs : List Char)
  /-- Line breaks, with blanks around them that do not count. -/
  | breaks (bs : List Char)
  /-- The line breaks after one that was escaped. -/
  | joined (bs : List Char)
  deriving DecidableEq, Repr

namespace Space

/-- The white space and one more blank. -/
def addBlank (c : Char) : Space → Space
  | .none      => .blanks [c]
  | .blanks bs => .blanks (bs ++ [c])
  | .breaks bs => .breaks bs
  | .joined bs => .joined bs

/-- The white space and one more line break. -/
def addBreak (c : Char) : Space → Space
  | .none      => .breaks [c]
  | .blanks _  => .breaks [c]
  | .breaks bs => .breaks (bs ++ [c])
  | .joined bs => .joined (bs ++ [c])

/-- What line breaks between two words stand for. -/
def fold : List Char → List Char
  | ['\n']     => [' ']
  | '\n' :: bs => bs
  | bs         => bs

/-- What the white space stands for in the scalar. -/
def text : Space → List Char
  | .none      => []
  | .blanks bs => bs
  | .breaks bs => fold bs
  | .joined bs => bs

/-- A line ended since the last word. -/
def hasBreak : Space → Bool
  | .breaks _ => true
  | _         => false

/-- There is some white space. -/
def isSome : Space → Bool
  | .none => false
  | _     => true

end Space

end SceneScript.Yaml
