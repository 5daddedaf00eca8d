import SceneScript.Yaml.Layout
import SceneScript.Yaml.Node

/-!
# Yaml — Document

From tokens to the tree of a document.  A text holds one document, perhaps with directives before it
and end markers after it.
-/

namespace SceneScript.Yaml

/-- What is known on the way through the tokens of a document. -/
structure Course where
  tokens  : List Placed
  /-- The names of the anchors so far, each with its number. -/
  anchors : List (String × Nat) := []
  /-- The handles that tags may have. -/
  handles : List String := ["!", "!!"]

/-- A step through the tokens of a document. -/
abbrev Reader := StateT Course (Except Error)

namespace Reader

/-- The next token. -/
def peek : Reader Token := do
  match (← get).tokens with
  | p :: _ => return p.token
  | []     => return .streamEnd

/-- Leaves the next token behind. -/
def skip : Reader Unit :=
  modify fun c => { c with tokens := c.tokens.drop 1 }

/-- Stops with a problem at the next token. -/
def fail {α : Type} (p : Problem) : Reader α := do
  throw ⟨p, (← get).tokens.head?.map fun t => (t.line, t.column)⟩

/-- The number of the anchor that an alias names. -/
def aliasNumber (name : String) : Reader Nat := do
  match (← get).anchors.lookup name with
  | some n => return n
  | none   => fail .unknownAlias

/-- The number of an anchor is that of the names known before it, itself included if it is known. -/
def defineAnchor (name : String) : Reader Nat := do
  let anchors := (← get).anchors
  modify fun c => { c with anchors := (name, anchors.length) :: anchors.filter (·.1 ≠ name) }
  return anchors.length

/-- Stops if no directive defines the handle of a tag. -/
def checkHandle : Option String → Reader Unit
  | none        => return
  | some handle => do unless (← get).handles.contains handle do fail .undefinedTagHandle

/-- The anchor and the tag before a node, in either order: whether there is one of them, and the
number of the anchor. -/
def properties : Reader (Bool × Option Nat) := do
  match ← peek with
  | .anchor name =>
    skip
    let anchor ← defineAnchor name
    if let .tag handle ← peek then
      skip
      checkHandle handle
    return (true, some anchor)
  | .tag handle =>
    skip
    checkHandle handle
    if let .anchor name ← peek then
      skip
      return (true, some (← defineAnchor name))
    return (true, none)
  | _ => return (false, none)

end Reader

/-- Where a node stands. -/
inductive Position where
  | block
  /-- A key or value of a block mapping, where a sequence need not be indented. -/
  | blockMapping
  | flow
  deriving DecidableEq, Repr

open Reader

/-- A node, or the blank one where the next token shows that none is written. -/
def unlessEnd (ends : List Token) (node : Reader Node) : Reader Node := do
  if ends.contains (← peek) then return .blank none
  node

/-- The value of a mapping entry: what follows the colon, if there is one. -/
def valueOf (ends : List Token) (node : Reader Node) : Reader Node := do
  if (← peek) ≠ .value then return .blank none
  skip
  unlessEnd ends node

/-- Leaves the comma before an item of a flow collection behind; the first item has none. -/
def skipComma (first : Bool) : Reader Unit := do
  if first then return
  unless (← peek) = .flowEntry do fail .missingFlowEnd
  skip

/-- The tokens before which a key or value of a block mapping may be left out. -/
def blockEntryEnds : List Token := [.key, .value, .blockEnd]

mutual

/-- A node. -/
def readNode (fuel : Nat) (position : Position) : Reader Node := do
  match fuel with
  | 0        => fail .missingNode
  | fuel + 1 =>
    if let .alias name ← peek then
      let anchor ← aliasNumber name
      skip
      return .alias anchor
    let (present, anchor) ← properties
    match ← peek, position with
    | .blockEntry, .blockMapping => return .sequence anchor (← readLevelItems fuel)
    | .scalar text, _ =>
      skip
      return .scalar anchor text
    | .flowSequenceStart, _ =>
      skip
      return .sequence anchor (← readFlowItems fuel true)
    | .flowMappingStart, _ =>
      skip
      return .mapping anchor (← readFlowEntries fuel true)
    | .blockSequenceStart, .block | .blockSequenceStart, .blockMapping =>
      skip
      return .sequence anchor (← readBlockItems fuel)
    | .blockMappingStart, .block | .blockMappingStart, .blockMapping =>
      skip
      return .mapping anchor (← readBlockEntries fuel)
    | _, _ => if present then return .blank anchor else fail .missingNode

/-- The items of a block sequence. -/
def readBlockItems (fuel : Nat) : Reader (List Node) := do
  match fuel with
  | 0        => fail .missingEntry
  | fuel + 1 =>
    match ← peek with
    | .blockEntry =>
      skip
      let item ← unlessEnd [.blockEntry, .blockEnd] (readNode fuel .block)
      return item :: (← readBlockItems fuel)
    | .blockEnd   =>
      skip
      return []
    | _           => fail .missingEntry

/-- The items of a sequence that is not indented deeper than the mapping around it. -/
def readLevelItems (fuel : Nat) : Reader (List Node) := do
  match fuel with
  | 0        => fail .missingEntry
  | fuel + 1 =>
    if (← peek) ≠ .blockEntry then return []
    skip
    let item ← unlessEnd (.blockEntry :: blockEntryEnds) (readNode fuel .block)
    return item :: (← readLevelItems fuel)

/-- The entries of a block mapping. -/
def readBlockEntries (fuel : Nat) : Reader (List (Node × Node)) := do
  match fuel with
  | 0        => fail .missingKey
  | fuel + 1 =>
    match ← peek with
    | .key      =>
      skip
      let key ← unlessEnd blockEntryEnds (readNode fuel .blockMapping)
      let value ← valueOf blockEntryEnds (readNode fuel .blockMapping)
      return (key, value) :: (← readBlockEntries fuel)
    | .blockEnd =>
      skip
      return []
    | _         => fail .missingKey

/-- The items of a flow sequence; all but the first come after a comma.  A key among them makes a
mapping of one entry; where the key itself is left out, so is the token after its mark. -/
def readFlowItems (fuel : Nat) (first : Bool) : Reader (List Node) := do
  match fuel with
  | 0        => fail .missingFlowEnd
  | fuel + 1 =>
    if (← peek) = .flowSequenceEnd then
      skip
      return []
    skipComma first
    match ← peek with
    | .flowSequenceEnd =>
      skip
      return []
    | .key             =>
      skip
      let key ←
        match ← peek with
        | .value | .flowEntry | .flowSequenceEnd => do
          skip
          pure (.blank none)
        | _ => readNode fuel .flow
      let value ← valueOf [.flowEntry, .flowSequenceEnd] (readNode fuel .flow)
      return .mapping none [(key, value)] :: (← readFlowItems fuel false)
    | _                =>
      let item ← readNode fuel .flow
      return item :: (← readFlowItems fuel false)

/-- The entries of a flow mapping; all but the first come after a comma. -/
def readFlowEntries (fuel : Nat) (first : Bool) : Reader (List (Node × Node)) := do
  match fuel with
  | 0        => fail .missingFlowEnd
  | fuel + 1 =>
    if (← peek) = .flowMappingEnd then
      skip
      return []
    skipComma first
    match ← peek with
    | .flowMappingEnd =>
      skip
      return []
    | .key            =>
      skip
      let key ← unlessEnd [.value, .flowEntry, .flowMappingEnd] (readNode fuel .flow)
      let value ← valueOf [.flowEntry, .flowMappingEnd] (readNode fuel .flow)
      return (key, value) :: (← readFlowEntries fuel false)
    | _               =>
      let key ← readNode fuel .flow
      return (key, .blank none) :: (← readFlowEntries fuel false)

end

/-- The directives before a document, given whether a version was stated and which handles were
defined. -/
def readDirectives : (count : Nat) → (version : Bool) → (handles : List String) → Reader Unit
  | 0,         _,       _       => return
  | count + 1, version, handles => do
    match ← peek with
    | .versionDirective major minor =>
      if version then fail .duplicateDirective
      unless major = 1 && (minor = 1 || minor = 2) do fail .unsupportedVersion
      skip
      readDirectives count true handles
    | .tagDirective handle =>
      if handles.contains handle then fail .duplicateDirective
      skip
      readDirectives count version (handle :: handles)
    | _ => modify fun c => { c with handles := c.handles ++ handles }

/-- Leaves the end markers behind. -/
def skipDocumentEnds : Reader Unit :=
  modify fun c => { c with tokens := c.tokens.dropWhile (·.token = .documentEnd) }

/-- The root of the only document. -/
def readDocument (fuel : Nat) : Reader Node := do
  let root ←
    match ← peek with
    | .streamEnd => fail .emptyStream
    | .versionDirective .. | .tagDirective .. | .documentStart =>
      readDirectives fuel false []
      unless (← peek) = .documentStart do fail .missingDocumentStart
      skip
      match ← peek with
      | .versionDirective .. | .tagDirective .. | .documentStart | .documentEnd | .streamEnd =>
        pure (.blank none)
      | _ => readNode fuel .block
    | _ => readNode fuel .block
  skipDocumentEnds
  unless (← peek) = .streamEnd do fail .extraDocument
  return root

/-- The root of the document that a text holds.  Every token is the start of three nodes and lists
at most, which bounds the recursion. -/
def Node.read (text : String) : Except Error Node := do
  let ts ← tokens text.toList
  let (root, _) ← (readDocument (3 * ts.length + 3)).run { tokens := ts }
  return root

end SceneScript.Yaml
