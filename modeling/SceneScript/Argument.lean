import SceneScript.Literal
import SceneScript.Text.Blank
import SceneScript.Text.Quote

/-!
# Argument

Argument lists: `(tok tok …)`, `()`, or nothing at all.  A token is a bare literal or a quoted run,
which keeps its quotes; gaps separate tokens.  Nothing is evaluated, so an argument is the text of
its token.  The reader stops at the first token that is neither.
-/

namespace SceneScript

open Text

/-- Why an argument list was refused. -/
inductive ArgumentError where
  /-- The list does not start with `(` or does not end with `)`. -/
  | missingParen
  /-- A quoted token has no closing quote. -/
  | unterminatedString
  /-- A token is neither a bare literal nor a quoted run. -/
  | badToken (token : String)
  deriving DecidableEq, Repr

/-- The wording of an argument error. -/
def ArgumentError.message : ArgumentError → String
  | .missingParen       => "argument list must be wrapped in parentheses"
  | .unterminatedString => "unterminated string literal"
  | .badToken token     => s!"invalid argument token '{token}'"

namespace Argument

/-- `s` up to its first gap. -/
def word (s : List Char) : List Char :=
  s.takeWhile fun c => !isGap c

/-- `s` from its first gap on. -/
def afterWord (s : List Char) : List Char :=
  s.dropWhile fun c => !isGap c

theorem length_afterWord_le (s : List Char) : (afterWord s).length ≤ s.length :=
  (List.dropWhile_sublist _).length_le

/-- A token may end before `s`: there is nothing more, or a gap. -/
def endsToken : List Char → Bool
  | []     => true
  | c :: _ => isGap c

/-- The tokens of the text between the parentheses. -/
def readTokens : List Char → Except ArgumentError (List String)
  | []      => .ok []
  | c :: cs =>
    if isGap c then readTokens cs
    else if isQuote c then
      match _ : closeQuote c c cs with
      | none             => .error .unterminatedString
      | some (run, rest) =>
        if endsToken rest then
          (readTokens rest).map (String.ofList (c :: run) :: ·)
        else .error (.badToken (String.ofList (word (c :: cs))))
    else if Literal.isBare (c :: word cs) then
      (readTokens (afterWord cs)).map (String.ofList (c :: word cs) :: ·)
    else .error (.badToken (String.ofList (c :: word cs)))
termination_by s => s.length
decreasing_by
  · simp
  · exact Nat.lt_succ_of_lt (closeQuote_length_lt ‹_›)
  · exact Nat.lt_succ_of_le (length_afterWord_le cs)

/-- The text between the outer parentheses. -/
def inside? : List Char → Option (List Char)
  | '(' :: cs => if cs.getLast? = some ')' then some cs.dropLast else none
  | _         => none

/-- Reads an argument list. -/
def read (s : List Char) : Except ArgumentError (List String) :=
  if (trim s).isEmpty then .ok []
  else
    match inside? (trim s) with
    | some inner => readTokens inner
    | none       => .error .missingParen

end Argument

end SceneScript
