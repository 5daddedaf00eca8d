import SceneScript.Yaml.Directive
import SceneScript.Yaml.Scalar.Plain

/-!
# Yaml — Layout

From glyphs to tokens.  The layout is what the reader knows while it goes through a text: how far
the block collections it is in are indented, and where a mapping key may have started.  That a
node was a key shows only at the colon after it, so the `key` token, and the start of the mapping
if this is its first key, are put in front of the node afterwards.
-/

namespace SceneScript.Yaml

/-- A node that a colon may still turn into a mapping key. -/
structure PossibleKey where
  /-- Nothing but a key can stand there. -/
  required : Bool
  /-- How many tokens come before it. -/
  position : Nat
  /-- Its first glyph. -/
  start    : Glyph
  deriving DecidableEq, Repr

/-- A key and its colon stand on one line, at most 1024 bytes apart. -/
def PossibleKey.isStale (key : PossibleKey) (g : Glyph) : Bool :=
  key.start.line < g.line || key.start.index + 1024 < g.index

/-- What is known on the way through a text. -/
structure Layout where
  /-- The tokens so far, the last one first. -/
  tokens     : List Placed := []
  /-- The column of the innermost block collection; -1 outside all of them. -/
  indent     : Int := -1
  /-- The columns of the block collections around it, from the inside out. -/
  indents    : List Int := []
  /-- The possible key of the innermost flow collection, or of the block collections. -/
  key        : Option PossibleKey := none
  /-- The possible keys around the flow collections, from the inside out. -/
  outerKeys  : List (Option PossibleKey) := []
  /-- A key may start here. -/
  keyAllowed : Bool := true
  deriving Repr

namespace Layout

/-- The place is inside a flow collection. -/
def inFlow (l : Layout) : Bool :=
  !l.outerKeys.isEmpty

/-- The layout and one more token, which starts at `g`. -/
def emit (l : Layout) (g : Glyph) (t : Token) : Layout :=
  { l with tokens := ⟨t, g.line, g.column⟩ :: l.tokens }

/-! ### Possible keys -/

/-- A key that has become stale at `g` is none. -/
def expire (g : Glyph) : Option PossibleKey → Except Error (Option PossibleKey)
  | none     => .ok none
  | some key =>
    if !key.isStale g then .ok (some key)
    else if key.required then .error (Problem.missingColon.at [g])
    else .ok none

/-- The layout at `g` without stale keys. -/
def expireKeys (l : Layout) (g : Glyph) : Except Error Layout := do
  return { l with key := ← expire g l.key, outerKeys := ← l.outerKeys.mapM (expire g) }

/-- The layout at `g` after something that cannot follow a key. -/
def dropKey (l : Layout) (g : Glyph) : Except Error Layout :=
  match l.key with
  | none     => .ok l
  | some key =>
    if key.required then .error (Problem.missingColon.at [g]) else .ok { l with key := none }

/-- The layout at `g`, where a node starts that may be a key. -/
def saveKey (l : Layout) (g : Glyph) : Except Error Layout := do
  if !l.keyAllowed then return l
  let l ← l.dropKey g
  return { l with key := some ⟨!l.inFlow && l.indent = g.column, l.tokens.length, g⟩ }

/-! ### Indentation -/

/-- Block collections that are indented deeper than `column` end at `g`. -/
def unroll (l : Layout) (g : Glyph) (column : Int) : Layout :=
  if l.inFlow then l else go l.indents l
where
  go : List Int → Layout → Layout
  | [],      l => if l.indent > column then { l.emit g .blockEnd with indent := -1 } else l
  | i :: is, l =>
    if l.indent > column then go is { l.emit g .blockEnd with indent := i, indents := is } else l

/-- A block collection starts at `g` if that is indented deeper than the innermost one. -/
def roll (l : Layout) (g : Glyph) (start : Token) : Layout :=
  if !l.inFlow && l.indent < g.column then
    { l.emit g start with indent := g.column, indents := l.indent :: l.indents }
  else l

/-- The possible key is one: its token goes in front of it. -/
def confirmKey (l : Layout) (key : PossibleKey) : Layout :=
  let count := l.tokens.length - key.position
  let before := { l with tokens := l.tokens.drop count, key := none, keyAllowed := false }
  let before := (before.roll key.start .blockMappingStart).emit key.start .key
  { before with tokens := l.tokens.take count ++ before.tokens }

/-- A part of the text outside all collections starts at `g`. -/
def outermost (l : Layout) (g : Glyph) : Except Error Layout := do
  return { ← (l.unroll g (-1)).dropKey g with keyAllowed := false }

/-! ### Tokens -/

/-- What follows blanks, comments and line breaks, and whether a key may start there.  A byte order
mark at the start of a line counts as a blank, and a tab does unless it could be mistaken for
indentation. -/
def skipSpace (flow inComment keyAllowed : Bool) : List Glyph → Bool × List Glyph
  | []      => (keyAllowed, [])
  | g :: gs =>
    if g.isBreak then skipSpace flow false (keyAllowed || !flow) gs
    else if inComment && !g.isEnd then skipSpace flow true keyAllowed gs
    else if g.isMark || g.char = ' ' || (g.char = '\t' && (flow || !keyAllowed)) then
      skipSpace flow false keyAllowed gs
    else if g.char = '#' then skipSpace flow true keyAllowed gs
    else (keyAllowed, g :: gs)

/-- A flow collection starts at `g`. -/
def openFlow (l : Layout) (g : Glyph) (t : Token) : Except Error Layout := do
  let l ← l.saveKey g
  return { l.emit g t with key := none, outerKeys := l.key :: l.outerKeys, keyAllowed := true }

/-- A flow collection ends at `g`. -/
def closeFlow (l : Layout) (g : Glyph) (t : Token) : Except Error Layout := do
  let l := { ← l.dropKey g with keyAllowed := false }
  match l.outerKeys with
  | []        => return l.emit g t
  | key :: ks => return { l.emit g t with key := key, outerKeys := ks }

/-- A comma stands at `g`. -/
def flowEntry (l : Layout) (g : Glyph) : Except Error Layout := do
  return { (← l.dropKey g).emit g .flowEntry with keyAllowed := true }

/-- The mark of a block sequence entry stands at `g`. -/
def blockEntry (l : Layout) (g : Glyph) : Except Error Layout := do
  unless l.inFlow || l.keyAllowed do throw (Problem.misplacedEntry.at [g])
  let l ← (l.roll g .blockSequenceStart).dropKey g
  return { l.emit g .blockEntry with keyAllowed := true }

/-- The mark of an explicit key stands at `g`. -/
def explicitKey (l : Layout) (g : Glyph) : Except Error Layout := do
  unless l.inFlow || l.keyAllowed do throw (Problem.misplacedKey.at [g])
  let l ← (l.roll g .blockMappingStart).dropKey g
  return { l.emit g .key with keyAllowed := !l.inFlow }

/-- The colon before a mapping value stands at `g`. -/
def mappingValue (l : Layout) (g : Glyph) : Except Error Layout := do
  match l.key with
  | some key => return (l.confirmKey key).emit g .value
  | none     =>
    unless l.inFlow || l.keyAllowed do throw (Problem.misplacedValue.at [g])
    return { (l.roll g .blockMappingStart).emit g .value with keyAllowed := !l.inFlow }

/-- A node, or a property of one, starts at `g` and may be a key. -/
def nodeStart (l : Layout) (g : Glyph) : Except Error Layout := do
  return { ← l.saveKey g with keyAllowed := false }

/-- A plain scalar may start with `g` before `gs`. -/
def startsPlain (l : Layout) (g : Glyph) (gs : List Glyph) : Bool :=
  !(g.endsWord || "-?:,[]\x7b\x7d#&*!|>'\"%@`".contains g.char) ||
    (g.char = '-' && !nextIs Glyph.isBlank gs) ||
    (!l.inFlow && (g.char = '?' || g.char = ':') && !nextIs Glyph.endsWord gs)

/-- The layout after the token that starts at `g`, and what follows it. -/
def token (l : Layout) (g : Glyph) (gs : List Glyph) : Except Error (Layout × List Glyph) := do
  if g.column = 0 && g.char = '%' then
    let (t, rest) ← readDirective gs
    return ((← l.outermost g).emit g t, rest)
  if isMarker '-' (g :: gs) then return ((← l.outermost g).emit g .documentStart, gs.drop 2)
  if isMarker '.' (g :: gs) then return ((← l.outermost g).emit g .documentEnd, gs.drop 2)
  if g.char = '[' then return (← l.openFlow g .flowSequenceStart, gs)
  if g.char = '{' then return (← l.openFlow g .flowMappingStart, gs)
  if g.char = ']' then return (← l.closeFlow g .flowSequenceEnd, gs)
  if g.char = '}' then return (← l.closeFlow g .flowMappingEnd, gs)
  if g.char = ',' then return (← l.flowEntry g, gs)
  if g.char = '-' && nextIs Glyph.endsWord gs then return (← l.blockEntry g, gs)
  if g.char = '?' && (l.inFlow || nextIs Glyph.endsWord gs) then return (← l.explicitKey g, gs)
  if g.char = ':' && (l.inFlow || nextIs Glyph.endsWord gs) then return (← l.mappingValue g, gs)
  if g.char = '*' then
    let (name, rest) ← readAnchor gs
    return ((← l.nodeStart g).emit g (.alias name), rest)
  if g.char = '&' then
    let (name, rest) ← readAnchor gs
    return ((← l.nodeStart g).emit g (.anchor name), rest)
  if g.char = '!' then
    let (handle, rest) ← readTag l.inFlow (g :: gs)
    return ((← l.nodeStart g).emit g (.tag handle), rest)
  if (g.char = '|' || g.char = '>') && !l.inFlow then
    let (text, rest) ← readBlock (g.char = '>') l.indent gs
    let l := { ← l.dropKey g with keyAllowed := true }
    return (l.emit g (.scalar (String.ofList text)), rest)
  if g.char = '\'' || g.char = '"' then
    let (text, rest) ← readQuoted g.char .none gs
    return ((← l.nodeStart g).emit g (.scalar (String.ofList text)), rest)
  if l.startsPlain g gs then
    let (text, brk, rest) ← readPlain l.inFlow (l.indent + 1) .none (g :: gs)
    let l := { ← l.nodeStart g with keyAllowed := brk }
    return (l.emit g (.scalar (String.ofList text)), rest)
  throw (Problem.unknownToken.at [g])

/-- The layout at the end of the text, with the tokens of `gs`.  Each token takes a glyph at
least, so as many rounds as there are glyphs are enough. -/
def tokenize : (rounds : Nat) → Layout → List Glyph → Except Error Layout
  | 0,          l, _  => .ok l
  | rounds + 1, l, gs => do
    let (keyAllowed, gs) := skipSpace l.inFlow false l.keyAllowed gs
    match gs with
    | []      => return l
    | g :: gs =>
      let l ← { l with keyAllowed := keyAllowed }.expireKeys g
      let l := l.unroll g g.column
      if g.isEnd then return (← l.outermost g).emit g .streamEnd
      let (l, rest) ← l.token g gs
      tokenize rounds l rest

end Layout

/-- The tokens of a text. -/
def tokens (text : List Char) : Except Error (List Placed) := do
  let gs := glyphs text
  if let some g := gs.find? fun g => !(g.isEnd || isAllowed g.char) then
    throw (Problem.forbiddenCharacter.at [g])
  if text.contains endChar then throw ⟨.forbiddenCharacter, none⟩
  return (← Layout.tokenize gs.length {} gs).tokens.reverse

end SceneScript.Yaml
