/-!
# Yaml — Glyph

The characters of a YAML text with their places.  Line breaks are made uniform on the way in:
CRLF, a lone carriage return and the next-line character all become a line feed, while the two
Unicode separators stay what they are.  A text ends in an end glyph, so a reader never runs out of
characters before it sees the end.
-/

namespace SceneScript.Yaml

/-- A character and its place: how many bytes, whole lines, and characters of its own line come
before it. -/
structure Glyph where
  char   : Char
  index  : Nat
  line   : Nat
  column : Nat
  deriving DecidableEq, Repr

/-- `c` may stand in a YAML text. -/
def isAllowed (c : Char) : Bool :=
  c = '\t' || c = '\n' || c = '\r' || (0x20 ≤ c.toNat && c.toNat ≤ 0x7E) || c.toNat = 0x85 ||
    (0xA0 ≤ c.toNat && c.toNat ≤ 0xD7FF) || (0xE000 ≤ c.toNat && c.toNat ≤ 0xFFFD) ||
    0x10000 ≤ c.toNat

/-- The character of the end glyph; it is not allowed in a text. -/
def endChar : Char := '\x00'

/-- The byte order mark. -/
def byteOrderMark : Char := '\ufeff'

/-- The glyphs of a text whose first character has the given place. -/
def glyphsFrom (index line column : Nat) : List Char → List Glyph
  | []                 => [⟨endChar, index, line, column⟩]
  | '\r' :: '\n' :: cs => ⟨'\n', index, line, column⟩ :: glyphsFrom (index + 2) (line + 1) 0 cs
  | c :: cs            =>
    if c = '\n' || c = '\r' || c = '\u0085' then
      ⟨'\n', index, line, column⟩ :: glyphsFrom (index + c.utf8Size) (line + 1) 0 cs
    else if c = '\u2028' || c = '\u2029' then
      ⟨c, index, line, column⟩ :: glyphsFrom (index + c.utf8Size) (line + 1) 0 cs
    else ⟨c, index, line, column⟩ :: glyphsFrom (index + c.utf8Size) line (column + 1) cs

/-- The glyphs of a text. -/
def glyphs (text : List Char) : List Glyph :=
  glyphsFrom 0 0 0 text

namespace Glyph

/-- The glyph breaks the line. -/
def isBreak (g : Glyph) : Bool :=
  g.char = '\n' || g.char = '\u2028' || g.char = '\u2029'

/-- The glyph is a space or a tab. -/
def isBlank (g : Glyph) : Bool :=
  g.char = ' ' || g.char = '\t'

/-- The glyph is a byte order mark at the start of a line, where it says nothing. -/
def isMark (g : Glyph) : Bool :=
  g.column = 0 && g.char = byteOrderMark

/-- The glyph is the end of the text. -/
def isEnd (g : Glyph) : Bool :=
  g.char = endChar

/-- The glyph ends a line. -/
def endsLine (g : Glyph) : Bool :=
  g.isBreak || g.isEnd

/-- The glyph ends a word. -/
def endsWord (g : Glyph) : Bool :=
  g.isBlank || g.endsLine

/-- The glyph may stand in a name: a letter, a digit, `_` or `-`. -/
def isNameChar (g : Glyph) : Bool :=
  g.char.isAlphanum || g.char = '_' || g.char = '-'

end Glyph

/-- What comes next satisfies `p`; nothing at all counts as the end, which does. -/
def nextIs (p : Glyph → Bool) : List Glyph → Bool
  | g :: _ => p g
  | []     => true

/-- A document marker stands here: three times `c` at the start of a line, as a word. -/
def isMarker (c : Char) : List Glyph → Bool
  | a :: b :: d :: rest =>
    a.column = 0 && a.char = c && b.char = c && d.char = c && nextIs Glyph.endsWord rest
  | _ => false

/-- Either document marker, `---` or `...`, stands here. -/
def atMarker (gs : List Glyph) : Bool :=
  isMarker '-' gs || isMarker '.' gs

end SceneScript.Yaml
