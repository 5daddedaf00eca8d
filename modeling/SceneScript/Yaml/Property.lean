import SceneScript.Yaml.Scalar.Quoted

/-!
# Yaml — Property

What may stand before a node: the name of an anchor, and a tag.  A tag is written in full between
angle brackets, or as a handle, which a directive may define, and a suffix.
-/

namespace SceneScript.Yaml

/-- The characters of glyphs, as a string. -/
def textOf (gs : List Glyph) : String :=
  String.ofList (gs.map (·.char))

/-- The name at the front, and what follows it. -/
def takeName (gs : List Glyph) : String × List Glyph :=
  (textOf (gs.takeWhile Glyph.isNameChar), gs.dropWhile Glyph.isNameChar)

/-- The glyph may follow the name of an anchor. -/
def Glyph.endsAnchor (g : Glyph) : Bool :=
  g.endsWord || "?:,]\x7d%@`".contains g.char

/-- The name of an anchor or alias, and what follows it. -/
def readAnchor (gs : List Glyph) : Except Error (String × List Glyph) :=
  let (name, rest) := takeName gs
  if name.isEmpty || !nextIs Glyph.endsAnchor rest then .error (Problem.badAnchor.at rest)
  else .ok (name, rest)

/-- The glyph may stand in a tag; `wide` also allows what would end one in a flow collection. -/
def Glyph.isTagChar (wide : Bool) (g : Glyph) : Bool :=
  g.isNameChar || ";/?:@&=+$.!~*'()".contains g.char || (wide && ",[]".contains g.char)

/-- The byte that `%` and two hexadecimal digits at the front stand for. -/
def readByte? : List Glyph → Option Nat
  | a :: gs => if a.char = '%' then hexNumber? 0 2 gs else none
  | []      => none

/-- How many bytes a character has whose UTF-8 form starts with the byte `b`. -/
def utf8Width? (b : Nat) : Option Nat :=
  if b < 0x80 then some 1
  else if 0xC0 ≤ b && b < 0xE0 then some 2
  else if 0xE0 ≤ b && b < 0xF0 then some 3
  else if 0xF0 ≤ b && b < 0xF8 then some 4
  else none

/-- `n` escaped bytes stand at the front, each one that continues a character. -/
def continues : (n : Nat) → List Glyph → Bool
  | 0,     _  => true
  | n + 1, gs =>
    match readByte? gs with
    | some b => 0x80 ≤ b && b < 0xC0 && continues n (gs.drop 3)
    | none   => false

/-- How many glyphs the escaped character at the front takes. -/
def escapedLength? (gs : List Glyph) : Option Nat := do
  let width ← utf8Width? (← readByte? gs)
  if continues (width - 1) (gs.drop 3) then some (width * 3) else none

/-- How many of the glyphs at the front belong to a tag: `skip` of them for sure.  There is none
if an escape is malformed. -/
def tagLength? (wide : Bool) (skip : Nat) : List Glyph → Option Nat
  | []      => some 0
  | g :: gs =>
    match skip with
    | n + 1 => (tagLength? wide n gs).map (· + 1)
    | 0     =>
      if g.char = '%' then
        (escapedLength? (g :: gs)).bind fun n => (tagLength? wide (n - 1) gs).map (· + 1)
      else if g.isTagChar wide then (tagLength? wide 0 gs).map (· + 1)
      else some 0

/-- What follows the tag characters at the front; there has to be one unless `mayBeEmpty`. -/
def skipTagText (wide mayBeEmpty : Bool) (gs : List Glyph) : Except Error (List Glyph) :=
  match tagLength? wide 0 gs with
  | none   => .error (Problem.badTag.at gs)
  | some n => if n = 0 && !mayBeEmpty then .error (Problem.badTag.at gs) else .ok (gs.drop n)

/-- The handle of a tag at the front, from `!` on, and what follows it.  A name that no second `!`
closes is no handle, and is left to the suffix. -/
def takeHandle (gs : List Glyph) : String × List Glyph :=
  let (name, rest) := takeName (gs.drop 1)
  if !rest.isEmpty && nextIs (·.char = '!') rest then ("!" ++ name ++ "!", rest.drop 1)
  else ("!", gs.drop 1)

/-- The handle of a tag, from `!` on, and what follows the tag.  In a flow collection a comma may
follow it directly. -/
def readTag (flow : Bool) (gs : List Glyph) : Except Error (Option String × List Glyph) := do
  let (handle, rest) ←
    if nextIs (·.char = '<') (gs.drop 1) then do
      let rest ← skipTagText true false (gs.drop 2)
      unless nextIs (·.char = '>') rest do throw (Problem.badTag.at rest)
      pure (none, rest.drop 1)
    else do
      let (handle, rest) := takeHandle gs
      pure (some handle, ← skipTagText false (handle = "!") rest)
  if nextIs Glyph.endsWord rest || (flow && nextIs (·.char = ',') rest) then return (handle, rest)
  throw (Problem.badTag.at rest)

end SceneScript.Yaml
