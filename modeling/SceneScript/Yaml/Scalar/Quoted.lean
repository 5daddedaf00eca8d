import SceneScript.Yaml.Problem
import SceneScript.Yaml.Scalar.Space

/-!
# Yaml — Scalar — Quoted

Scalars in quotes.  Between single quotes a quote is written twice and nothing else is special;
between double quotes a backslash starts an escape, and at the end of a line it joins the next
line on.
-/

namespace SceneScript.Yaml

/-- The value of a hexadecimal digit. -/
def hexValue? (c : Char) : Option Nat :=
  if '0' ≤ c && c ≤ '9' then some (c.toNat - '0'.toNat)
  else if 'a' ≤ c && c ≤ 'f' then some (c.toNat - 'a'.toNat + 10)
  else if 'A' ≤ c && c ≤ 'F' then some (c.toNat - 'A'.toNat + 10)
  else none

/-- The value of exactly `n` hexadecimal digits, appended to `value`. -/
def hexNumber? (value : Nat) : (n : Nat) → List Glyph → Option Nat
  | 0,     _       => some value
  | n + 1, g :: gs => (hexValue? g.char).bind fun d => hexNumber? (value * 16 + d) n gs
  | _ + 1, []      => none

/-- The character that an escape letter stands for on its own. -/
def escaped? (c : Char) : Option Char :=
  match c with
  | '0'  => some '\x00'
  | 'a'  => some '\x07'
  | 'b'  => some '\x08'
  | 't'  => some '\t'
  | '\t' => some '\t'
  | 'n'  => some '\n'
  | 'v'  => some '\x0b'
  | 'f'  => some '\x0c'
  | 'r'  => some '\r'
  | 'e'  => some '\x1b'
  | ' '  => some ' '
  | '"'  => some '"'
  | '/'  => some '/'
  | '\\' => some '\\'
  | 'N'  => some '\u0085'
  | '_'  => some '\u00a0'
  | 'L'  => some '\u2028'
  | 'P'  => some '\u2029'
  | _    => none

/-- How many hexadecimal digits follow an escape letter. -/
def codeLength? (c : Char) : Option Nat :=
  match c with
  | 'x' => some 2
  | 'u' => some 4
  | 'U' => some 8
  | _   => none

/-- The character that the escape after a backslash stands for, and how many glyphs it takes. -/
def readEscape (gs : List Glyph) : Except Error (Char × Nat) :=
  match gs with
  | []      => .error (Problem.unknownEscape.at gs)
  | g :: hs =>
    match escaped? g.char, codeLength? g.char with
    | some c, _      => .ok (c, 1)
    | none,   some n =>
      match hexNumber? 0 n hs with
      | some v =>
        if h : v.isValidChar then .ok (Char.ofNatAux v h, n + 1)
        else .error (Problem.badCodePoint.at gs)
      | none   => .error (Problem.unknownEscape.at gs)
    | none,   none   => .error (Problem.unknownEscape.at gs)

/-- A scalar in quotes `q`, from the character after the opening quote on, and what follows the
closing quote.  `space` is the white space since the last word. -/
def readQuoted (q : Char) (space : Space) (gs : List Glyph) :
    Except Error (List Char × List Glyph) :=
  match gs with
  | []      => .error (Problem.unterminatedScalar.at gs)
  | g :: hs =>
    if g.isBlank then readQuoted q (space.addBlank g.char) hs
    else if g.isBreak then readQuoted q (space.addBreak g.char) hs
    else if atMarker gs then .error (Problem.markerInScalar.at gs)
    else if g.isEnd then .error (Problem.unterminatedScalar.at gs)
    else if g.char = q then
      if q = '\'' && nextIs (·.char = '\'') hs then
        (readQuoted q .none (hs.drop 1)).map fun r => (space.text ++ '\'' :: r.1, r.2)
      else .ok (space.text, hs)
    else if q = '"' && g.char = '\\' then
      if nextIs Glyph.isBreak hs then
        (readQuoted q (.joined []) (hs.drop 1)).map fun r => (space.text ++ r.1, r.2)
      else
        match readEscape hs with
        | .error e   => .error e
        | .ok (c, n) =>
          (readQuoted q .none (hs.drop n)).map fun r => (space.text ++ c :: r.1, r.2)
    else (readQuoted q .none hs).map fun r => (space.text ++ g.char :: r.1, r.2)
termination_by gs.length
decreasing_by all_goals simp only [List.length_cons, List.length_drop]; omega

end SceneScript.Yaml
