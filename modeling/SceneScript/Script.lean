import SceneScript.Comment
import SceneScript.Error
import SceneScript.Event
import SceneScript.Script.Line

/-!
# Script

Reading a whole script.  Comments go first, then each line that is not blank is read on its own
(`Line.read`): it gives a statement, it is ignored, or it is refused, which ends the reading.  The
refused line is reported by where its first character stood in the script, comments included.

The counters are kept as the reading goes: they are set back before the first line, ignored lines
are counted where they stand, and statements at the end, if it is reached.  A `Normalizer` keeps the
counters of its last reading and nothing else.
-/

namespace SceneScript

open Text

/-- Numbers about one reading of a script. -/
structure Counters where
  /-- Lines of the script, comments and blank lines included. -/
  sourceLines : Nat := 0
  /-- Statements read; none if the reading failed. -/
  statements  : Nat := 0
  /-- Lines that said nothing. -/
  ignored     : Nat := 0
  deriving DecidableEq, Repr

/-- A reading of a script under way. -/
structure Progress where
  counters   : Counters
  /-- The statements so far. -/
  statements : Array Statement := #[]
  /-- What there was to report so far. -/
  events     : Array Event := #[]

namespace Progress

/-- A line gave a statement. -/
def accept (p : Progress) (statement : Statement) : Progress :=
  { p with
    statements := p.statements.push statement
    events     := p.events.push (.parsed statement) }

/-- A line said nothing. -/
def ignore (p : Progress) (text : List Char) : Progress :=
  { p with
    counters.ignored := p.counters.ignored + 1
    events           := p.events.push (.ignored (String.ofList text)) }

/-- A line was refused. -/
def reject (p : Progress) (line : Nat) (reason : LineError) : Progress :=
  { p with events := p.events.push (.rejected line reason) }

/-- The last line was read. -/
def finish (p : Progress) : Progress :=
  { p with
    counters.statements := p.statements.size
    events              := p.events.push (.normalized p.statements.size p.counters.ignored) }

@[simp] theorem counters_accept (p : Progress) (statement : Statement) :
    (p.accept statement).counters = p.counters := rfl

@[simp] theorem statements_accept (p : Progress) (statement : Statement) :
    (p.accept statement).statements = p.statements.push statement := rfl

@[simp] theorem ignored_ignore (p : Progress) (text : List Char) :
    (p.ignore text).counters.ignored = p.counters.ignored + 1 := rfl

@[simp] theorem statements_ignore (p : Progress) (text : List Char) :
    (p.ignore text).statements = p.statements := rfl

end Progress

namespace Script

/-- A line of a script without comments: the byte offset of its first character that is not
blank, and the trimmed text. -/
structure Row where
  start : Nat
  text  : List Char
  deriving DecidableEq, Repr

/-- The lines that are not blank, where the first of the given lines starts at `offset`. -/
def rows (offset : Nat) : List (List Char) → List Row
  | []      => []
  | l :: ls =>
    let rest := rows (offset + byteLength l + 1) ls
    if (trim l).isEmpty then rest
    else ⟨offset + byteLength (l.takeWhile isBlank), trim l⟩ :: rest

/-- Reads lines one after another, up to the first that is refused. -/
def readRows (s : Stripped) (p : Progress) :
    List Row → Except SyntaxError (List Statement) × Progress
  | []      => (.ok p.statements.toList, p.finish)
  | r :: rs =>
    match Line.read r.text with
    | .ok (some statement) => readRows s (p.accept statement) rs
    | .ok none             => readRows s (p.ignore r.text) rs
    | .error reason        =>
      let line := s.sourceLine r.start
      (.error ⟨line⟩, p.reject line reason)

/-- **One line**: it gives a statement, or it is ignored, or it is refused. -/
theorem readRows_cons (s : Stripped) (p : Progress) (r : Row) (rs : List Row) :
    (∃ st, Line.read r.text = .ok (some st) ∧
      readRows s p (r :: rs) = readRows s (p.accept st) rs) ∨
    (Line.read r.text = .ok none ∧
      readRows s p (r :: rs) = readRows s (p.ignore r.text) rs) ∨
    ∃ reason, Line.read r.text = .error reason ∧
      readRows s p (r :: rs) =
        (.error ⟨s.sourceLine r.start⟩, p.reject (s.sourceLine r.start) reason) := by
  rw [readRows]
  cases hr : Line.read r.text with
  | ok o =>
      cases o with
      | some st => exact .inl ⟨st, rfl, rfl⟩
      | none => exact .inr (.inl ⟨rfl, rfl⟩)
  | error reason => exact .inr (.inr ⟨reason, rfl, rfl⟩)

end Script

/-- Reads scripts one after another and keeps the numbers of the last one. -/
structure Normalizer where
  counters : Counters := {}
  deriving DecidableEq, Repr

namespace Normalizer

/-- Forgets the last reading; the next one is of `source`. -/
def reset (n : Normalizer) (source : String) : Normalizer :=
  { n with counters := { sourceLines := (lines source.toList).length } }

/-- Reads one script. -/
def run (n : Normalizer) (source : String) :
    Logged (Except SyntaxError (List Statement)) × Normalizer :=
  let n := n.reset source
  let s := strip source
  let (result, p) :=
    Script.readRows s { counters := n.counters } (Script.rows 0 (s.residue.splitOn '\n'))
  (⟨result, p.events.toList⟩, { n with counters := p.counters })

end Normalizer

/-- The statements of a script. -/
def normalize (source : String) : Logged (Except SyntaxError (List Statement)) :=
  (({} : Normalizer).run source).1

theorem value_normalize (source : String) :
    (normalize source).value = (Script.readRows (strip source)
      { counters := { sourceLines := (lines source.toList).length } }
      (Script.rows 0 ((strip source).residue.splitOn '\n'))).1 :=
  rfl

end SceneScript
