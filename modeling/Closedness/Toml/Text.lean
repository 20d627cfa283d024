import Closedness.Toml.Basic

/-!
# Strings, keys and blanks in TOML

Strings come in four forms: between quotes, where a backslash escapes, or between apostrophes,
where nothing does, and each on one line or, with the delimiter tripled, on several. The parsers
here start after the opening delimiter and recurse on the text; what they have read so far is kept
in reverse. A line end inside a string is kept as it is written, with one character or with two.
-/

namespace Closedness.Toml

/-! ## Characters -/

/-- The blanks that may stand inside a line. -/
def isBlank (c : Char) : Bool :=
  c = ' ' || c = '\t'

/-- A character that may stand in a comment or in a string: no control character but the tab. -/
def isPlain (c : Char) : Bool :=
  c = '\t' || (0x20 ≤ c.toNat && c.toNat ≠ 0x7F)

/-- A character of a bare key. -/
def isBareKey (c : Char) : Bool :=
  c.isAlphanum || c = '_' || c = '-'

/-- The value of a hexadecimal digit. -/
def hexValue? (c : Char) : Option Nat :=
  if c.isDigit then some (c.toNat - '0'.toNat)
  else if 'a' ≤ c ∧ c ≤ 'f' then some (c.toNat - 'a'.toNat + 10)
  else if 'A' ≤ c ∧ c ≤ 'F' then some (c.toNat - 'A'.toNat + 10)
  else none

/-- The character with the given hexadecimal code point, if there is one. -/
def hexChar? (digits : List Char) : Option Char := do
  let values ← digits.mapM hexValue?
  let code := values.foldl (fun n d => n * 16 + d) 0
  if code.isValidChar then return Char.ofNat code else none

/-- The character that a one-letter escape stands for. -/
def escapeChar? : Char → Option Char
  | 'b' => some '\x08'
  | 't' => some '\t'
  | 'n' => some '\n'
  | 'f' => some '\x0c'
  | 'r' => some '\r'
  | 'e' => some '\x1b'
  | '"' => some '"'
  | '\\' => some '\\'
  | _ => none

/-! ## Blanks and comments -/

/-- Skips the blanks of a line. -/
def skipBlanks (chars : List Char) : List Char :=
  chars.dropWhile isBlank

/-- Skips the rest of a comment, up to the end of its line. -/
def skipComment : List Char → Option (List Char)
  | [] => some []
  | '\n' :: rest => some ('\n' :: rest)
  | '\r' :: '\n' :: rest => some ('\r' :: '\n' :: rest)
  | c :: rest => if isPlain c then skipComment rest else none

/-- Skips blanks, comments and line ends; `comment` says whether the text starts in a comment. -/
def skipTrivia (comment : Bool) : List Char → Option (List Char)
  | [] => some []
  | '\n' :: rest => skipTrivia false rest
  | '\r' :: '\n' :: rest => skipTrivia false rest
  | c :: rest =>
    if comment then if isPlain c then skipTrivia true rest else none
    else if isBlank c then skipTrivia false rest
    else if c = '#' then skipTrivia true rest
    else some (c :: rest)

/-- Takes what may follow a statement on its line: blanks, a comment, and the end of the line. -/
def endLine (chars : List Char) : Option (List Char) := do
  let chars := skipBlanks chars
  let chars ← match chars with
    | '#' :: rest => skipComment rest
    | _ => some chars
  match chars with
  | [] => some []
  | '\n' :: rest => some rest
  | '\r' :: '\n' :: rest => some rest
  | _ => none

/-! ## Strings -/

/-- The text collected in reverse. -/
def collected (found : List Char) : String :=
  String.ofList found.reverse

/-- A string between apostrophes, on one line. -/
def literalString (found : List Char) : Parser String
  | [] => none
  | '\x27' :: rest => some (collected found, rest)
  | c :: rest => if isPlain c then literalString (c :: found) rest else none

/-- A string between quotes, on one line. -/
def basicString (found : List Char) : Parser String
  | [] => none
  | '"' :: rest => some (collected found, rest)
  | '\\' :: 'x' :: a :: b :: rest =>
    (hexChar? [a, b]).bind fun e => basicString (e :: found) rest
  | '\\' :: 'u' :: a :: b :: c :: d :: rest =>
    (hexChar? [a, b, c, d]).bind fun e => basicString (e :: found) rest
  | '\\' :: 'U' :: a :: b :: c :: d :: e :: f :: g :: h :: rest =>
    (hexChar? [a, b, c, d, e, f, g, h]).bind fun e => basicString (e :: found) rest
  | '\\' :: c :: rest => (escapeChar? c).bind fun e => basicString (e :: found) rest
  | c :: rest => if isPlain c then basicString (c :: found) rest else none

/-- A line end right after an opening delimiter of three is not part of the string. -/
def skipFirstLineEnd : List Char → List Char
  | '\n' :: rest => rest
  | '\r' :: '\n' :: rest => rest
  | chars => chars

/-- A string between triple apostrophes. Up to two more apostrophes before the closing ones belong
to the string. -/
def longLiteralString (found : List Char) : Parser String
  | [] => none
  | '\x27' :: '\x27' :: '\x27' :: '\x27' :: '\x27' :: rest =>
    some (collected ('\x27' :: '\x27' :: found), rest)
  | '\x27' :: '\x27' :: '\x27' :: '\x27' :: rest => some (collected ('\x27' :: found), rest)
  | '\x27' :: '\x27' :: '\x27' :: rest => some (collected found, rest)
  | '\n' :: rest => longLiteralString ('\n' :: found) rest
  | '\r' :: '\n' :: rest => longLiteralString ('\n' :: '\r' :: found) rest
  | c :: rest => if isPlain c then longLiteralString (c :: found) rest else none

/-- What the parser of a string between triple quotes is in the middle of. -/
inductive LongMode where
  | text
  /-- After a backslash that ends its line, before the end of that line. -/
  | lineEnd
  /-- After the end of that line, where blanks and line ends are skipped. -/
  | margin
deriving DecidableEq

/-- A string between triple quotes. A backslash at the end of a line drops the line end and all
blanks and line ends after it. Up to two more quotes before the closing ones belong to the
string. -/
def longBasicString : LongMode → List Char → Parser String
  | _, _, [] => none
  | .lineEnd, found, '\n' :: rest => longBasicString .margin found rest
  | .lineEnd, found, '\r' :: '\n' :: rest => longBasicString .margin found rest
  | .lineEnd, found, c :: rest => if isBlank c then longBasicString .lineEnd found rest else none
  | mode, found, '\n' :: rest =>
    longBasicString mode (if mode = .margin then found else '\n' :: found) rest
  | mode, found, '\r' :: '\n' :: rest =>
    longBasicString mode (if mode = .margin then found else '\n' :: '\r' :: found) rest
  | _, found, '"' :: '"' :: '"' :: '"' :: '"' :: rest =>
    some (collected ('"' :: '"' :: found), rest)
  | _, found, '"' :: '"' :: '"' :: '"' :: rest => some (collected ('"' :: found), rest)
  | _, found, '"' :: '"' :: '"' :: rest => some (collected found, rest)
  | _, found, '\\' :: 'x' :: a :: b :: rest =>
    (hexChar? [a, b]).bind fun e => longBasicString .text (e :: found) rest
  | _, found, '\\' :: 'u' :: a :: b :: c :: d :: rest =>
    (hexChar? [a, b, c, d]).bind fun e => longBasicString .text (e :: found) rest
  | _, found, '\\' :: 'U' :: a :: b :: c :: d :: e :: f :: g :: h :: rest =>
    (hexChar? [a, b, c, d, e, f, g, h]).bind fun e => longBasicString .text (e :: found) rest
  | _, found, '\\' :: '\n' :: rest => longBasicString .margin found rest
  | _, found, '\\' :: '\r' :: '\n' :: rest => longBasicString .margin found rest
  | _, found, '\\' :: c :: rest =>
    if isBlank c then longBasicString .lineEnd found rest
    else (escapeChar? c).bind fun e => longBasicString .text (e :: found) rest
  | mode, found, c :: rest =>
    if mode = .margin ∧ isBlank c then longBasicString .margin found rest
    else if isPlain c then longBasicString .text (c :: found) rest
    else none

/-! ## Keys -/

/-- One part of a key: bare, or a string on one line. -/
def simpleKey : Parser String
  | '"' :: rest => basicString [] rest
  | '\x27' :: rest => literalString [] rest
  | chars =>
    match chars.takeWhile isBareKey with
    | [] => none
    | bare => some (String.ofList bare, chars.dropWhile isBareKey)

/-- The further parts of a dotted key, in reverse; at most `fuel` of them. -/
def keyParts : Nat → List String → Parser (List String)
  | 0, _, _ => none
  | fuel + 1, found, chars =>
    match skipBlanks chars with
    | '.' :: rest => do
      let (part, rest) ← simpleKey (skipBlanks rest)
      keyParts fuel (part :: found) rest
    | chars => some (found.reverse, chars)

/-- A key, part by part, and the blanks after it. -/
def key : Parser (List String) := fun chars => do
  let (part, rest) ← simpleKey chars
  let (parts, rest) ← keyParts (rest.length + 1) [part] rest
  if parts.length ≤ maxNesting then some (parts, rest) else none

end Closedness.Toml
