/-!
# Json

JSON values and their text.  Objects keep their fields in order, and a number is kept as it is
written.  `Json.pretty` writes a value over several lines with two spaces of indentation a level;
only what has to be escaped is.
-/

namespace SceneScript

/-- A JSON value. -/
inductive Json where
  | null
  | bool (b : Bool)
  /-- A number, by its digits. -/
  | number (digits : String)
  | string (s : String)
  | array (items : List Json)
  | object (fields : List (String × Json))
  deriving Repr, Inhabited

namespace Json

/-- The digit with value `n < 16`, in lower case. -/
def hexDigit (n : Nat) : Char :=
  if n < 10 then Char.ofNat ('0'.toNat + n) else Char.ofNat ('a'.toNat + (n - 10))

/-- A character as it is written inside a string. -/
def escape (c : Char) : List Char :=
  if c = '"' then ['\\', '"']
  else if c = '\\' then ['\\', '\\']
  else if c = '\x08' then ['\\', 'b']
  else if c = '\x0c' then ['\\', 'f']
  else if c = '\n' then ['\\', 'n']
  else if c = '\r' then ['\\', 'r']
  else if c = '\t' then ['\\', 't']
  else if c.toNat < 0x20 then
    ['\\', 'u', '0', '0', hexDigit (c.toNat / 16), hexDigit (c.toNat % 16)]
  else [c]

/-- A string in its quotes. -/
def quote (s : String) : List Char :=
  '"' :: (s.toList.flatMap escape ++ ['"'])

/-- A new line at the given level of indentation. -/
def newline (level : Nat) : List Char :=
  '\n' :: List.replicate (2 * level) ' '

mutual

/-- A value whose first line stands at the given level of indentation. -/
def pretty (level : Nat) : Json → List Char
  | .null          => ['n', 'u', 'l', 'l']
  | .bool true     => ['t', 'r', 'u', 'e']
  | .bool false    => ['f', 'a', 'l', 's', 'e']
  | .number digits => digits.toList
  | .string s      => quote s
  | .array []      => ['[', ']']
  | .array (v :: vs) =>
    '[' :: (newline (level + 1) ++ pretty (level + 1) v ++ prettyItems (level + 1) vs ++
      newline level ++ [']'])
  | .object []     => ['{', '}']
  | .object ((k, v) :: fs) =>
    '{' :: (newline (level + 1) ++ quote k ++ [':', ' '] ++ pretty (level + 1) v ++
      prettyFields (level + 1) fs ++ newline level ++ ['}'])

/-- The items after the first, each on a line of its own. -/
def prettyItems (level : Nat) : List Json → List Char
  | []      => []
  | v :: vs => ',' :: (newline level ++ pretty level v ++ prettyItems level vs)

/-- The fields after the first, each on a line of its own. -/
def prettyFields (level : Nat) : List (String × Json) → List Char
  | []           => []
  | (k, v) :: fs =>
    ',' :: (newline level ++ quote k ++ [':', ' '] ++ pretty level v ++ prettyFields level fs)

end

end Json

end SceneScript
