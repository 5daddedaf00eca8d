import SceneScript.Yaml.Problem

/-!
# Yaml — Scalar — Block

Block scalars.  A header says whether lines are kept (`|`) or folded (`>`), what becomes of the line
breaks at the end, and perhaps the indentation; otherwise the first line that is not empty gives it.
The scalar goes on as long as lines are indented that far.
-/

namespace SceneScript.Yaml

/-- What becomes of the line breaks at the end of a block scalar. -/
inductive Chomp where
  /-- The last one stays. -/
  | clip
  /-- All of them go. -/
  | strip
  /-- All of them stay. -/
  | keep
  deriving DecidableEq, Repr

/-- What the first line of a block scalar says. -/
structure BlockHeader where
  chomp     : Chomp := .clip
  /-- How much deeper than its surroundings the scalar is indented, if that is given. -/
  increment : Option Nat := none
  deriving DecidableEq, Repr

/-- The chomping mark at the front, if there is one. -/
def chompOf? : List Glyph → Option Chomp
  | g :: _ => if g.char = '+' then some .keep else if g.char = '-' then some .strip else none
  | []     => none

/-- The indentation digit at the front, if there is one. -/
def incrementOf? : List Glyph → Option Nat
  | g :: _ => if g.char.isDigit then some (g.char.toNat - '0'.toNat) else none
  | []     => none

/-- The header, from the character after `|` or `>` on, and what follows it on its line. -/
def readHeader (gs : List Glyph) : BlockHeader × List Glyph :=
  match chompOf? gs with
  | some chomp =>
    let hs := gs.drop 1
    match incrementOf? hs with
    | some n => (⟨chomp, some n⟩, hs.drop 1)
    | none   => (⟨chomp, none⟩, hs)
  | none       =>
    match incrementOf? gs with
    | some n =>
      let hs := gs.drop 1
      match chompOf? hs with
      | some chomp => (⟨chomp, some n⟩, hs.drop 1)
      | none       => (⟨.clip, some n⟩, hs)
    | none   => ({}, gs)

/-- What follows the blanks and the comment at the end of a line. -/
def restOfLine (gs : List Glyph) : List Glyph :=
  match gs.dropWhile Glyph.isBlank with
  | g :: hs => if g.char = '#' then hs.dropWhile fun h => !h.endsLine else g :: hs
  | []      => []

/-- Empty lines: their breaks, the deepest indentation among them and before what follows, and
what follows.  With `indent = 0` the indentation is still open. -/
def readBreaks (indent deepest : Nat) : List Glyph → Except Error (List Char × Nat × List Glyph)
  | []      => .ok ([], deepest, [])
  | g :: gs =>
    let inside := indent = 0 || g.column < indent
    if inside && g.char = ' ' then readBreaks indent deepest gs
    else if inside && g.char = '\t' then .error (Problem.tabIndentation.at (g :: gs))
    else if g.isBreak then
      (readBreaks indent (max deepest g.column) gs).map fun r => (g.char :: r.1, r.2)
    else .ok ([], max deepest g.column, g :: gs)

theorem readBreaks_length_le {indent deepest deepest' : Nat} {gs rest : List Glyph}
    {bs : List Char} (h : readBreaks indent deepest gs = .ok (bs, deepest', rest)) :
    rest.length ≤ gs.length := by
  induction gs generalizing deepest bs with
  | nil => rw [readBreaks] at h; cases h; simp
  | cons g gs ih =>
      rw [readBreaks] at h
      split at h
      · exact Nat.le_succ_of_le (ih h)
      · split at h
        · cases h
        · split at h
          · cases e : readBreaks indent (max deepest g.column) gs with
            | error x => rw [e] at h; cases h
            | ok r =>
                obtain ⟨bs', d, rest'⟩ := r
                rw [e] at h
                cases h
                exact Nat.le_succ_of_le (ih e)
          · cases h; exact Nat.le_refl _

/-- What follows the line break at the front, if there is one. -/
def skipBreak : List Glyph → List Glyph
  | g :: gs => if g.isBreak then gs else g :: gs
  | []      => []

/-- The line break at the front, if there is one. -/
def frontBreak : List Glyph → List Char
  | g :: _ => if g.isBreak then [g.char] else []
  | []     => []

theorem skipBreak_length_le (gs : List Glyph) : (skipBreak gs).length ≤ gs.length := by
  cases gs with
  | nil => exact Nat.le_refl _
  | cons g gs => rw [skipBreak]; split <;> simp

/-- The breaks between two lines of text: folding drops a break between lines that both start
without a blank. -/
def joinLines (folded : Bool) (first rest : List Char) : List Char :=
  if folded && first = ['\n'] then (if rest.isEmpty then [' '] else rest) else first ++ rest

/-- The breaks at the end of a block scalar. -/
def chompBreaks : Chomp → (first rest : List Char) → List Char
  | .clip,  first, _    => first
  | .strip, _,     _    => []
  | .keep,  first, rest => first ++ rest

/-- The lines of a block scalar.  `first` is the break after the line before, `rest` those of the
empty lines since, and `blankBefore` says that the line before starts with a blank. -/
def readBlockLines (folds : Bool) (chomp : Chomp) (indent : Nat) (blankBefore : Bool)
    (first rest : List Char) (gs : List Glyph) : Except Error (List Char × List Glyph) :=
  match gs with
  | []      => .ok (chompBreaks chomp first rest, [])
  | g :: hs =>
    if g.column = indent && !g.endsLine then
      let line := (g :: hs.takeWhile fun h => !h.endsLine).map (·.char)
      let tail := hs.dropWhile fun h => !h.endsLine
      match _ : readBreaks indent 0 (skipBreak tail) with
      | .error e             => .error e
      | .ok (rest', _, next) =>
        (readBlockLines folds chomp indent g.isBlank (frontBreak tail) rest' next).map fun r =>
          (joinLines (folds && !blankBefore && !g.isBlank) first rest ++ line ++ r.1, r.2)
    else .ok (chompBreaks chomp first rest, gs)
termination_by gs.length
decreasing_by
  have l₁ := readBreaks_length_le ‹_›
  have l₂ := skipBreak_length_le tail
  have l₃ : tail.length ≤ hs.length := (List.dropWhile_sublist _).length_le
  simp only [List.length_cons]
  omega

/-- A block scalar, from the character after `|` or `>` on, inside surroundings indented by
`outer`. -/
def readBlock (folds : Bool) (outer : Int) (gs : List Glyph) :
    Except Error (List Char × List Glyph) := do
  let (header, hs) := readHeader gs
  if header.increment = some 0 then throw (Problem.zeroIndentation.at gs)
  let hs := restOfLine hs
  unless nextIs Glyph.endsLine hs do throw (Problem.badBlockHeader.at hs)
  let given := match header.increment with
    | some n => (max outer 0).toNat + n
    | none   => 0
  let (rest, deepest, hs) ← readBreaks given 0 (skipBreak hs)
  let indent := if given = 0 then max (max deepest (outer + 1).toNat) 1 else given
  readBlockLines folds header.chomp indent false [] rest hs

end SceneScript.Yaml
