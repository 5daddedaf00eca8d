import SceneScript.Text.Blank
import SceneScript.Text.Quote

/-!
# Intermediate — ListLiteral

Lists of texts on one line, such as `['a', "it's"]`.  An item stands in single quotes, or in double
quotes if it holds single ones and no double ones; backslash, line feed, carriage return, tab and
the quote in use are escaped.  Reading is more liberal: either quote may hold any item, blanks may
stand around items and commas, a comma may follow the last item, and an unknown escape stands for
itself, backslash included.
-/

namespace SceneScript.ListLiteral

open Text

/-- The quote in which an item is written. -/
def quoteOf (item : List Char) : Char :=
  if item.contains '\'' && !item.contains '"' then '"' else '\''

/-- A character as it is written between quotes `q`. -/
def escape (q c : Char) : List Char :=
  if c = '\\' then ['\\', '\\']
  else if c = '\n' then ['\\', 'n']
  else if c = '\r' then ['\\', 'r']
  else if c = '\t' then ['\\', 't']
  else if c = q then ['\\', q]
  else [c]

/-- An item in quotes. -/
def quote (item : List Char) : List Char :=
  quoteOf item :: (item.flatMap (escape (quoteOf item)) ++ [quoteOf item])

/-- A list of items in brackets. -/
def write (items : List String) : List Char :=
  '[' :: ([',', ' '].intercalate (items.map fun s => quote s.toList) ++ [']'])

/-- What a backslash and `c` stand for. -/
def unescape (c : Char) : List Char :=
  if c = 'n' then ['\n']
  else if c = 'r' then ['\r']
  else if c = 't' then ['\t']
  else if c = '\\' || c = '\'' || c = '"' then [c]
  else ['\\', c]

/-- The item that an opening quote `q` starts, and what follows its closing quote. -/
def readQuoted (q : Char) : List Char → Option (List Char × List Char)
  | []              => none
  | ['\\']          => none
  | '\\' :: c :: cs => (readQuoted q cs).map fun r => (unescape c ++ r.1, r.2)
  | c :: cs         =>
    if c = q then some ([], cs) else (readQuoted q cs).map fun r => (c :: r.1, r.2)

theorem readQuoted_length_lt {q : Char} {s item rest : List Char}
    (h : readQuoted q s = some (item, rest)) : rest.length < s.length := by
  fun_induction readQuoted q s generalizing item with
  | case1 => cases h
  | case2 => cases h
  | case3 c cs ih =>
      obtain ⟨r, h', e⟩ := Option.map_eq_some_iff.1 h
      cases e
      exact Nat.lt_of_lt_of_le (ih h') (by simp only [List.length_cons]; omega)
  | case4 => cases h; simp
  | case5 c cs _ _ _ ih =>
      obtain ⟨r, h', e⟩ := Option.map_eq_some_iff.1 h
      cases e
      exact Nat.lt_succ_of_lt (ih h')

theorem length_trimStart_le (s : List Char) : (trimStart s).length ≤ s.length :=
  (List.dropWhile_sublist _).length_le

/-- The items of the text between the brackets. -/
def readItems (s : List Char) : Option (List String) :=
  match _ : trimStart s with
  | []      => some []
  | q :: cs =>
    if isQuote q then
      match _ : readQuoted q cs with
      | none              => none
      | some (item, rest) =>
        match _ : trimStart rest with
        | []           => some [String.ofList item]
        | ',' :: rest' => (readItems rest').map (String.ofList item :: ·)
        | _ :: _       => none
    else none
termination_by s.length
decreasing_by
  rename_i h₁ _ h₂ h₃
  have l₁ := congrArg List.length h₁
  have l₃ := congrArg List.length h₃
  have l₂ := readQuoted_length_lt h₂
  have m₁ := length_trimStart_le s
  have m₃ := length_trimStart_le rest
  simp only [List.length_cons] at l₁ l₃
  omega

/-- The text between the outer brackets. -/
def inside? : List Char → Option (List Char)
  | '[' :: cs => if cs.getLast? = some ']' then some cs.dropLast else none
  | _         => none

/-- Reads a list of items in brackets. -/
def read (s : List Char) : Option (List String) :=
  (inside? (trim s)).bind readItems

end SceneScript.ListLiteral
