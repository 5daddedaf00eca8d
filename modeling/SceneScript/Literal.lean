/-!
# Literal

The arguments that need no quotes.  An identifier is a run of `&` and `*` and then names joined by
`::` or `.`; a number is signed or not, decimal or hexadecimal, with an optional exponent, and may
carry a suffix of letters.  The letters of a hexadecimal number, of an exponent and of a suffix
overlap, so a number is accepted when any reading of it is: `0x`, `1e` and `1ef` are numbers
because all that follows the digits may be a suffix.
-/

namespace SceneScript.Literal

/-- `c` may start a name. -/
def isNameStart (c : Char) : Bool :=
  c.isAlpha || c = '_'

/-- `c` may stand inside a name. -/
def isNameChar (c : Char) : Bool :=
  c.isAlphanum || c = '_'

/-- Names joined by `::` or `.`, to the end of the text.  `inside` says that a name is under
way, so that it may go on, stop or be followed by a joint. -/
def isPath : (inside : Bool) → List Char → Bool
  | inside, []             => inside
  | true,   ':' :: ':' :: cs => isPath false cs
  | true,   '.' :: cs      => isPath false cs
  | true,   c :: cs        => isNameChar c && isPath true cs
  | false,  c :: cs        => isNameStart c && isPath true cs

/-- A path of names, with any `&` and `*` before it. -/
def isIdentifier (s : List Char) : Bool :=
  isPath false (s.dropWhile fun c => c = '&' || c = '*')

/-- `s` without one leading sign. -/
def dropSign : List Char → List Char
  | '+' :: cs => cs
  | '-' :: cs => cs
  | cs        => cs

/-- Letters only, or nothing. -/
def isSuffix (s : List Char) : Bool :=
  s.all Char.isAlpha

/-- `c` is a hexadecimal digit. -/
def isHexDigit (c : Char) : Bool :=
  c.isDigit || ('a' ≤ c && c ≤ 'f') || ('A' ≤ c && c ≤ 'F')

/-- `0x` or `0X`, at least one hexadecimal digit, and a suffix. -/
def isHexadecimal : List Char → Bool
  | '0' :: x :: d :: cs =>
    (x = 'x' || x = 'X') && isHexDigit d && isSuffix (cs.dropWhile isHexDigit)
  | _ => false

/-- At least one digit, and then a suffix. -/
def isDigitsSuffix : List Char → Bool
  | d :: cs => d.isDigit && isSuffix (cs.dropWhile Char.isDigit)
  | []      => false

/-- `e` or `E`, a sign or none, at least one digit, and a suffix. -/
def isExponentSuffix : List Char → Bool
  | e :: cs => (e = 'e' || e = 'E') && isDigitsSuffix (dropSign cs)
  | []      => false

/-- What follows the digits and the point of a decimal number: digits with or without a point
and more digits, or a point and at least one digit. -/
def afterDecimal? : List Char → Option (List Char)
  | '.' :: d :: cs => if d.isDigit then some (cs.dropWhile Char.isDigit) else none
  | d :: cs        =>
    if d.isDigit then
      match cs.dropWhile Char.isDigit with
      | '.' :: r => some (r.dropWhile Char.isDigit)
      | r        => some r
    else none
  | [] => none

/-- A decimal number with or without an exponent, and a suffix. -/
def isDecimal (s : List Char) : Bool :=
  match afterDecimal? s with
  | some r => isSuffix r || isExponentSuffix r
  | none   => false

/-- A number, signed or not. -/
def isNumber (s : List Char) : Bool :=
  isHexadecimal (dropSign s) || isDecimal (dropSign s)

/-- An identifier or a number. -/
def isBare (s : List Char) : Bool :=
  isIdentifier s || isNumber s

end SceneScript.Literal
