import SceneScript.Text.Hidden

/-!
# Text — Visible

Text for a log line.  In double quotes a character that shows nothing of its own is written by its
number, so that the line shows what the text holds.  In a message only the characters that can steer
a terminal are.
-/

namespace SceneScript.Text

/-- The character shows something of its own, or is the space. -/
def isVisible (c : Char) : Bool :=
  if c.toNat < 0x80 then 0x20 ≤ c.toNat && c.toNat < 0x7F else !isHidden c

/-- A character by its number, in hexadecimal digits between braces. -/
def numbered (c : Char) : List Char :=
  ['\\', 'u', '{'] ++ Nat.toDigits 16 c.toNat ++ ['}']

/-- A character inside double quotes. -/
def quotedChar (c : Char) : List Char :=
  match c with
  | '\x00' => ['\\', '0']
  | '\t'   => ['\\', 't']
  | '\n'   => ['\\', 'n']
  | '\r'   => ['\\', 'r']
  | '"'    => ['\\', '"']
  | '\\'   => ['\\', '\\']
  | _      => if isVisible c then [c] else numbered c

/-- A text in double quotes. -/
def quoted (s : String) : String :=
  String.ofList ('"' :: s.toList.flatMap quotedChar ++ ['"'])

/-! ### Messages -/

/-- The characters of ASCII that can steer a terminal: bell, backspace, form feed, escape and
delete. -/
def steering : List Char :=
  ['\x07', '\x08', '\x0c', '\x1b', '\x7f']

/-- A character of a message: one that can steer a terminal is written by its number. -/
def harmlessChar (c : Char) : List Char :=
  if steering.contains c then
    ['\\', 'x', Nat.digitChar (c.toNat / 16), Nat.digitChar (c.toNat % 16)]
  else if 0x80 ≤ c.toNat && c.toNat ≤ 0x9F then numbered c
  else [c]

/-- A text that cannot steer the terminal on which it is printed. -/
def harmless (s : String) : String :=
  String.ofList (s.toList.flatMap harmlessChar)

end SceneScript.Text
