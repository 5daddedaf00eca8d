/-!
# Text — Line

Lines and byte offsets.  A line feed ends a line; `lines` also takes the carriage return of a
CRLF ending away, and sees no line after a final line feed.  Offsets count bytes of the UTF-8
form, so `byteLength` is the measure behind every position this library reports, and `lineStarts`
is the table in which a position is looked up to find the number of its line.
-/

namespace SceneScript.Text

/-- The number of bytes of `s` in UTF-8. -/
def byteLength : List Char → Nat
  | []      => 0
  | c :: cs => c.utf8Size + byteLength cs

@[simp] theorem byteLength_nil : byteLength [] = 0 := rfl

@[simp] theorem byteLength_cons (c : Char) (s : List Char) :
    byteLength (c :: s) = c.utf8Size + byteLength s := rfl

@[simp] theorem byteLength_append (s t : List Char) :
    byteLength (s ++ t) = byteLength s + byteLength t := by
  induction s with
  | nil         => simp
  | cons c s ih => simp [ih, Nat.add_assoc]

/-- A line that a line feed ended, without the carriage return of a CRLF ending. -/
def chopReturn (line : List Char) : List Char :=
  if line.getLast? = some '\r' then line.dropLast else line

/-- The lines among the stretches between line feeds: all but the last were ended by one, and
the last is a line only if it holds something. -/
def closeLines : List (List Char) → List (List Char)
  | []      => []
  | [l]     => if l.isEmpty then [] else [l]
  | l :: ls => chopReturn l :: closeLines ls

/-- The lines of `s`, without their endings. -/
def lines (s : List Char) : List (List Char) :=
  closeLines (s.splitOn '\n')

/-- The byte offsets just after the line feeds of `s`, where `s` starts at `offset`. -/
def startsAfter (offset : Nat) : List Char → List Nat
  | []      => []
  | c :: cs =>
    let rest := startsAfter (offset + c.utf8Size) cs
    if c = '\n' then (offset + c.utf8Size) :: rest else rest

/-- The byte offsets at which the lines of `s` start. -/
def lineStarts (s : List Char) : List Nat :=
  0 :: startsAfter 0 s

end SceneScript.Text
