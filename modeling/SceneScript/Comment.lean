import SceneScript.PartitionPoint
import SceneScript.Text.Line
import SceneScript.Text.Quote

/-!
# Comment

Taking the comments out of a script.  A script is cut into pieces (`pieces`): runs that are kept,
line comments `//…` and closed block comments `/*…*/`.  Quoted runs are kept whole, so a marker
inside one starts no comment; an opening quote or `/*` without its partner is ordinary text.

* `flatMap_source_pieces`: the pieces make up the script, so nothing but comments is lost.
* `strip`: a pass over the pieces that copies what stands between two comments in one go, and puts a
  space for each block comment and nothing for a line comment.
* `Stripped.sourceOffset` and `Stripped.sourceLine` say where a byte of what is left stood.  They
  search the list of what was copied from where, and the table of line starts.
-/

namespace SceneScript

open Text

/-- A piece of a script, as far as comments go. -/
inductive Piece where
  /-- Text that stays as it is. -/
  | kept (run : List Char)
  /-- The comment `//body`. -/
  | line (body : List Char)
  /-- The comment `/*body*/`. -/
  | block (body : List Char)
  deriving DecidableEq, Repr

namespace Piece

/-- The text of a piece in the script. -/
def source : Piece → List Char
  | .kept run   => run
  | .line body  => '/' :: '/' :: body
  | .block body => '/' :: '*' :: (body ++ ['*', '/'])

/-- What a piece leaves behind once comments are out. -/
def residue : Piece → List Char
  | .kept run => run
  | .line _   => []
  | .block _  => [' ']

end Piece

/-- `c` does not end a line comment. -/
def staysOnLine (c : Char) : Bool :=
  c ≠ '\n' && c ≠ '\r'

/-- What follows `/*`, up to the first `*/`, and what follows that. -/
def closeBlock : List Char → Option (List Char × List Char)
  | []               => none
  | '*' :: '/' :: cs => some ([], cs)
  | c :: cs          => (closeBlock cs).map fun r => (c :: r.1, r.2)

theorem closeBlock_append {s body rest : List Char} (h : closeBlock s = some (body, rest)) :
    body ++ ['*', '/'] ++ rest = s := by
  fun_induction closeBlock s generalizing body with
  | case1 => simp at h
  | case2 cs => cases h; rfl
  | case3 c cs _ ih =>
      obtain ⟨⟨body', rest'⟩, h', e⟩ := Option.map_eq_some_iff.1 h
      cases e
      simpa using ih h'

namespace Piece

/-- The piece at the front of `c :: cs`, and what follows it. -/
def next (c : Char) (cs : List Char) : Piece × List Char :=
  if isQuote c then
    match closeQuote c c cs with
    | some (run, rest) => (.kept (c :: run), rest)
    | none             => (.kept [c], cs)
  else
    match c, cs with
    | '/', '/' :: r => (.line (r.takeWhile staysOnLine), r.dropWhile staysOnLine)
    | '/', '*' :: r =>
      match closeBlock r with
      | some (body, rest) => (.block body, rest)
      | none              => (.kept ['/'], '*' :: r)
    | c, cs         => (.kept [c], cs)

theorem source_next (c : Char) (cs : List Char) :
    (next c cs).1.source ++ (next c cs).2 = c :: cs := by
  unfold next
  split
  · split
    · next h => simp [source, closeQuote_append h]
    · rfl
  · split
    · simp [source]
    · split
      · next h => simpa [source] using closeBlock_append h
      · rfl
    · rfl

theorem source_next_ne_nil (c : Char) (cs : List Char) : (next c cs).1.source ≠ [] := by
  unfold next
  split
  · split <;> simp [source]
  · split
    · simp [source]
    · split <;> simp [source]
    · simp [source]

theorem length_next_le (c : Char) (cs : List Char) : (next c cs).2.length ≤ cs.length := by
  have h := congrArg List.length (source_next c cs)
  have h₀ := List.length_pos_iff.2 (source_next_ne_nil c cs)
  simp only [List.length_append, List.length_cons] at h
  omega

end Piece

/-- The pieces of a script, in order. -/
def pieces : List Char → List Piece
  | []      => []
  | c :: cs => (Piece.next c cs).1 :: pieces (Piece.next c cs).2
termination_by s => s.length
decreasing_by exact Nat.lt_succ_of_le (Piece.length_next_le c cs)

/-- **Nothing but comments is lost**: the pieces make up the script. -/
theorem flatMap_source_pieces (s : List Char) : (pieces s).flatMap Piece.source = s := by
  fun_induction pieces s with
  | case1 => rfl
  | case2 c cs ih => rw [List.flatMap_cons, ih, Piece.source_next]

/-- What is left of a script once its comments are out, and the way back into the script. -/
structure Stripped where
  /-- The text that is left. -/
  text       : String := ""
  /-- Where each part that was put into the text starts: in the text, and in the script. -/
  origins    : Array (Nat × Nat) := #[]
  /-- Where the lines of the script start. -/
  lineStarts : Array Nat
  deriving DecidableEq, Repr

namespace Stripped

/-- Puts in a run of the script that starts at `start`; an empty one leaves no trace. -/
def keep (s : Stripped) (start : Nat) (run : String) : Stripped :=
  if run.isEmpty then s
  else
    { s with
      text    := s.text ++ run
      origins := s.origins.push (s.text.utf8ByteSize, start) }

/-- Puts in a space for what starts at `start` in the script. -/
def putSpace (s : Stripped) (start : Nat) : Stripped :=
  { s with
    text    := s.text.push ' '
    origins := s.origins.push (s.text.utf8ByteSize, start) }

/-- The characters left once the comments are out. -/
def residue (s : Stripped) : List Char :=
  s.text.toList

/-- Where in the script byte `offset` of what is left stood: counted on from the start of the
last part that starts at or before it. -/
def sourceOffset (s : Stripped) (offset : Nat) : Nat :=
  match partitionPoint s.origins fun o => o.1 ≤ offset with
  | ⟨0, _⟩     => offset
  | ⟨i + 1, h⟩ =>
    have hi : i < s.origins.size := Nat.lt_of_succ_lt_succ h
    let (out, src) := s.origins[i]
    src + (offset - out)

/-- The line of the script on which byte `offset` of what is left stood. -/
def sourceLine (s : Stripped) (offset : Nat) : Nat :=
  partitionPoint s.lineStarts fun start => start ≤ s.sourceOffset offset

end Stripped

/-- A pass over a script that has come to the end of a piece. -/
structure Scan where
  /-- What is left of the script, up to the last comment. -/
  out      : Stripped
  /-- Where that comment ended. -/
  runStart : Nat := 0
  /-- The run of the script from there on, not yet put in. -/
  run      : String := ""

namespace Scan

/-- How far the pass has come. -/
def offset (s : Scan) : Nat :=
  s.runStart + s.run.utf8ByteSize

/-- Puts in the run that ends here. -/
def flush (s : Scan) : Stripped :=
  s.out.keep s.runStart s.run

/-- Passes one more piece: what is kept makes the run longer, and a comment ends it. -/
def pass (s : Scan) (p : Piece) : Scan :=
  match p with
  | .kept run => { s with run := s.run ++ String.ofList run }
  | .line _   => { out := s.flush, runStart := s.offset + byteLength p.source }
  | .block _  => { out := s.flush.putSpace s.offset, runStart := s.offset + byteLength p.source }

end Scan

/-- Takes the comments out of a script. -/
def strip (source : String) : Stripped :=
  let start : Scan := { out := { lineStarts := (lineStarts source.toList).toArray } }
  ((pieces source.toList).foldl Scan.pass start).flush

end SceneScript
