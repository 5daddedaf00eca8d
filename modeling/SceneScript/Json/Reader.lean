import SceneScript.Json
import SceneScript.Json.Number

/-!
# Json — Reader

Reading JSON text.  The reader is strict: four blank characters, no control characters or lone
surrogates in strings, no trailing commas, nothing after the value, and at most `maxDepth` arrays
and objects inside one another.
-/

namespace SceneScript.Json

/-- How deep arrays and objects may be nested. -/
def maxDepth : Nat := 127

/-- `c` may stand between tokens. -/
def isSpace (c : Char) : Bool :=
  c = ' ' || c = '\n' || c = '\r' || c = '\t'

/-- `s` without the blanks at its front. -/
def skip (s : List Char) : List Char :=
  s.dropWhile isSpace

/-- The value of a hexadecimal digit. -/
def hexValue? (c : Char) : Option Nat :=
  if '0' ≤ c && c ≤ '9' then some (c.toNat - '0'.toNat)
  else if 'a' ≤ c && c ≤ 'f' then some (c.toNat - 'a'.toNat + 10)
  else if 'A' ≤ c && c ≤ 'F' then some (c.toNat - 'A'.toNat + 10)
  else none

/-- Four hexadecimal digits. -/
def hexUnit? : List Char → Option (Nat × List Char)
  | a :: b :: c :: d :: rest =>
    match hexValue? a, hexValue? b, hexValue? c, hexValue? d with
    | some a, some b, some c, some d => some (((a * 16 + b) * 16 + c) * 16 + d, rest)
    | _, _, _, _                     => none
  | _ => none

theorem hexUnit?_length_lt {s rest : List Char} {n : Nat} (h : hexUnit? s = some (n, rest)) :
    rest.length < s.length := by
  unfold hexUnit? at h
  split at h
  · split at h
    · cases h; simp only [List.length_cons]; omega
    · cases h
  · cases h

/-- A character given by its code, as one unit or as two surrogates. -/
def readUnicode (s : List Char) : Option (Char × List Char) :=
  match hexUnit? s with
  | none           => none
  | some (n, rest) =>
    if 0xD800 ≤ n && n ≤ 0xDBFF then
      match rest with
      | '\\' :: 'u' :: rest' =>
        match hexUnit? rest' with
        | some (m, rest'') =>
          if 0xDC00 ≤ m && m ≤ 0xDFFF then
            some (Char.ofNat (0x10000 + (n - 0xD800) * 0x400 + (m - 0xDC00)), rest'')
          else none
        | none => none
      | _ => none
    else if 0xDC00 ≤ n && n ≤ 0xDFFF then none
    else some (Char.ofNat n, rest)

theorem readUnicode_length_lt {s rest : List Char} {c : Char}
    (h : readUnicode s = some (c, rest)) : rest.length < s.length := by
  unfold readUnicode at h
  split at h
  · cases h
  · next n r h₁ =>
      have l₁ := hexUnit?_length_lt h₁
      split at h
      · split at h
        · split at h
          · next m r' h₂ =>
              have l₂ := hexUnit?_length_lt h₂
              split at h
              · simp only [Option.some.injEq, Prod.mk.injEq] at h
                simp only [List.length_cons] at l₁
                rw [← h.2]
                omega
              · cases h
          · cases h
        · cases h
      · split at h
        · cases h
        · simp only [Option.some.injEq, Prod.mk.injEq] at h
          exact h.2 ▸ l₁

/-- What a backslash and the characters after it stand for. -/
def readEscape : List Char → Option (Char × List Char)
  | '"' :: cs  => some ('"', cs)
  | '\\' :: cs => some ('\\', cs)
  | '/' :: cs  => some ('/', cs)
  | 'b' :: cs  => some ('\x08', cs)
  | 'f' :: cs  => some ('\x0c', cs)
  | 'n' :: cs  => some ('\n', cs)
  | 'r' :: cs  => some ('\r', cs)
  | 't' :: cs  => some ('\t', cs)
  | 'u' :: cs  => readUnicode cs
  | _          => none

theorem readEscape_length_lt {s rest : List Char} {c : Char}
    (h : readEscape s = some (c, rest)) : rest.length < s.length := by
  unfold readEscape at h
  split at h
  case h_9 => exact Nat.lt_succ_of_lt (readUnicode_length_lt h)
  case h_10 => cases h
  all_goals cases h; simp

/-- The string that an opening quote starts, and what follows its closing quote. -/
def readString : List Char → Option (List Char × List Char)
  | []         => none
  | '"' :: cs  => some ([], cs)
  | '\\' :: cs =>
    match _ : readEscape cs with
    | some (c, rest) => (readString rest).map fun r => (c :: r.1, r.2)
    | none           => none
  | c :: cs    =>
    if c.toNat < 0x20 then none else (readString cs).map fun r => (c :: r.1, r.2)
termination_by s => s.length
decreasing_by
  · exact Nat.lt_succ_of_lt (readEscape_length_lt ‹_›)
  · simp

/-- Items separated by commas, up to the closing character.  Each round takes at least a comma,
so `fuel` rounds are enough for a text of that length. -/
def readSequence {α : Type} (item : List Char → Option (α × List Char)) (close : Char) :
    (fuel : Nat) → List Char → Option (List α × List Char)
  | 0,        _ => none
  | fuel + 1, s =>
    match item s with
    | none           => none
    | some (a, rest) =>
      match skip rest with
      | ',' :: rest' =>
        (readSequence item close fuel (skip rest')).map fun r => (a :: r.1, r.2)
      | c :: rest'   => if c = close then some ([a], rest') else none
      | []           => none

/-- The inside of an array or object: nothing, or items separated by commas. -/
def readInside {α : Type} (item : List Char → Option (α × List Char)) (close : Char)
    (s : List Char) : Option (List α × List Char) :=
  match skip s with
  | c :: rest => if c = close then some ([], rest) else readSequence item close s.length (c :: rest)
  | []        => none

/-- A field of an object, where `value` reads values. -/
def readField (value : List Char → Option (Json × List Char)) :
    List Char → Option ((String × Json) × List Char)
  | '"' :: cs =>
    match readString cs with
    | some (key, rest) =>
      match skip rest with
      | ':' :: rest' => (value (skip rest')).map fun r => ((String.ofList key, r.1), r.2)
      | _            => none
    | none => none
  | _ => none

/-- The value at the front of a text, with at most `depth` arrays and objects inside one
another. -/
def readValue : (depth : Nat) → List Char → Option (Json × List Char)
  | _,         'n' :: 'u' :: 'l' :: 'l' :: cs        => some (.null, cs)
  | _,         't' :: 'r' :: 'u' :: 'e' :: cs        => some (.bool true, cs)
  | _,         'f' :: 'a' :: 'l' :: 's' :: 'e' :: cs => some (.bool false, cs)
  | _,         '"' :: cs => (readString cs).map fun r => (.string (String.ofList r.1), r.2)
  | depth + 1, '[' :: cs => (readInside (readValue depth) ']' cs).map fun r => (.array r.1, r.2)
  | depth + 1, '{' :: cs =>
    (readInside (readField (readValue depth)) '}' cs).map fun r => (.object r.1, r.2)
  | _,         cs        => (readNumber cs).map fun r => (.number (String.ofList r.1), r.2)

/-- Reads a text that holds one value. -/
def read (text : String) : Option Json :=
  match readValue maxDepth (skip text.toList) with
  | some (v, rest) => if (skip rest).isEmpty then some v else none
  | none           => none

end SceneScript.Json
