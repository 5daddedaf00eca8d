/-!
# Text — Blank

Which characters count as blank.  There are two classes: the Unicode property `White_Space`,
which trimming, names and the intermediate text go by (`isBlank`), and the five ASCII characters
that may stand between two arguments of a call (`isGap`).
-/

namespace SceneScript.Text

/-- The code points with the Unicode property `White_Space`, as closed ranges in order. -/
def blankRanges : List (Nat × Nat) :=
  [(0x09, 0x0D), (0x20, 0x20), (0x85, 0x85), (0xA0, 0xA0), (0x1680, 0x1680),
   (0x2000, 0x200A), (0x2028, 0x2029), (0x202F, 0x202F), (0x205F, 0x205F), (0x3000, 0x3000)]

/-- `c` has the property `White_Space`. -/
def isBlank (c : Char) : Bool :=
  blankRanges.any fun r => r.1 ≤ c.toNat && c.toNat ≤ r.2

/-- `c` may stand between two arguments: a space, tab, line feed, form feed or carriage
return, but not the vertical tab. -/
def isGap (c : Char) : Bool :=
  c = ' ' || c = '\t' || c = '\n' || c = '\x0c' || c = '\r'

/-- `s` without its leading blanks. -/
def trimStart (s : List Char) : List Char :=
  s.dropWhile isBlank

/-- `s` without its trailing blanks. -/
def trimEnd (s : List Char) : List Char :=
  (s.reverse.dropWhile isBlank).reverse

/-- `s` without the blanks at either end. -/
def trim (s : List Char) : List Char :=
  trimEnd (trimStart s)

end SceneScript.Text
