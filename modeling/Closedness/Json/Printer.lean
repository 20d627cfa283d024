import Closedness.Json.Basic

/-!
# Writing JSON text

`Json.pretty` writes a value over several lines: two blanks per level, `"key": value`, and `[]` or
an empty pair of braces for what is empty. Strings escape the quote, the backslash and the
characters below the blank, and nothing else.
-/

namespace Closedness.Json

/-- A hexadecimal digit, in lower case. -/
def hexDigit (n : Nat) : Char :=
  Nat.digitChar n

/-- A character as it stands inside a string. -/
def escape (c : Char) : List Char :=
  if c = '"' then ['\\', '"']
  else if c = '\\' then ['\\', '\\']
  else if c = '\x08' then ['\\', 'b']
  else if c = '\t' then ['\\', 't']
  else if c = '\n' then ['\\', 'n']
  else if c = '\x0c' then ['\\', 'f']
  else if c = '\r' then ['\\', 'r']
  else if c.toNat < 0x20 then
    ['\\', 'u', '0', '0', hexDigit (c.toNat / 16), hexDigit (c.toNat % 16)]
  else [c]

/-- A string between quotes. -/
def quote (s : String) : List Char :=
  '"' :: (s.toList.flatMap escape ++ ['"'])

/-- A line break followed by the blanks of level `depth`. -/
def newline (depth : Nat) : List Char :=
  '\n' :: List.replicate (2 * depth) ' '

mutual

/-- The lines of a value that stands at level `depth`; a value without text is written `null`. -/
def lines (depth : Nat) : Json → List Char
  | .null => "null".toList
  | .bool true => "true".toList
  | .bool false => "false".toList
  | .natural n => Nat.toDigits 10 n
  | .decimal lexeme => lexeme.toList
  | .string s => quote s
  | .array [] => "[]".toList
  | .array (first :: rest) =>
    '[' :: (newline (depth + 1) ++ first.lines (depth + 1) ++ elementLines (depth + 1) rest
      ++ newline depth ++ [']'])
  | .object [] => ['\x7b', '\x7d']
  | .object ((key, first) :: rest) =>
    '\x7b' :: (newline (depth + 1) ++ quote key ++ [':', ' '] ++ first.lines (depth + 1)
      ++ memberLines (depth + 1) rest ++ newline depth ++ ['\x7d'])
  | .undecodable => "null".toList

/-- The elements after the first, each after a comma and on a line of its own. -/
def elementLines (depth : Nat) : List Json → List Char
  | [] => []
  | element :: rest => ',' :: (newline depth ++ element.lines depth ++ elementLines depth rest)

/-- The members after the first, each after a comma and on a line of its own. -/
def memberLines (depth : Nat) : List (String × Json) → List Char
  | [] => []
  | (key, value) :: rest =>
    ',' :: (newline depth ++ quote key ++ [':', ' '] ++ value.lines depth ++ memberLines depth rest)

end

/-- The text of a value, over several lines and without a final line break. -/
def pretty (value : Json) : String :=
  String.ofList (value.lines 0)

end Closedness.Json
