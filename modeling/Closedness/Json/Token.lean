import Closedness.Json.Numeral

/-!
# JSON tokens

`tokens? : List Char → Option (List Token)` cuts a JSON text into its tokens. The scanner is an
automaton that takes one character at a time: `Scanner.step` is its transition, `Scanner.run` its
run over a text, and the tokens found so far are part of its state, latest first. Blanks are the
four of the JSON grammar and leave no trace, so two texts that differ only in them have the same
tokens.
-/

namespace Closedness.Json

/-- The parts a JSON text is made of. -/
inductive Token where
  | openBrace
  | closeBrace
  | openBracket
  | closeBracket
  | colon
  | comma
  /-- A word or a number. -/
  | scalar (value : Json)
  /-- A string; `none` when its escapes do not form characters. -/
  | text (value : Option String)

/-! ## Strings -/

/-- A piece of a string as written: a character, or the unit of a hexadecimal escape. -/
inductive Piece where
  | char (c : Char)
  | unit (value : Nat)

namespace Piece

/-- First half of a surrogate pair. -/
def isHigh (code : Nat) : Bool :=
  0xD800 ≤ code && code < 0xDC00

/-- Second half of a surrogate pair. -/
def isLow (code : Nat) : Bool :=
  0xDC00 ≤ code && code < 0xE000

/-- The character a surrogate pair stands for. -/
def pairChar (high low : Nat) : Char :=
  Char.ofNat (0x10000 + (high - 0xD800) * 0x400 + (low - 0xDC00))

/-- The characters the pieces spell: units are UTF-16, so a first half must be followed directly
by a second half, and neither half may stand alone. The characters found so far come in reverse. -/
def spell : List Piece → List Char → Option (List Char)
  | [], found => some found.reverse
  | .char c :: rest, found => spell rest (c :: found)
  | .unit high :: .unit low :: rest, found =>
    if isHigh high then
      if isLow low then spell rest (pairChar high low :: found) else none
    else if isLow high then none
    else spell (.unit low :: rest) (Char.ofNat high :: found)
  | .unit code :: rest, found =>
    if isHigh code || isLow code then none else spell rest (Char.ofNat code :: found)

end Piece

/-- The character that a one-letter escape stands for. -/
def escapeChar? : Char → Option Char
  | '"' => some '"'
  | '\\' => some '\\'
  | '/' => some '/'
  | 'b' => some '\x08'
  | 'f' => some '\x0c'
  | 'n' => some '\n'
  | 'r' => some '\r'
  | 't' => some '\t'
  | _ => none

/-- The value of a hexadecimal digit. -/
def hexValue? (c : Char) : Option Nat :=
  if '0' ≤ c ∧ c ≤ '9' then some (c.toNat - '0'.toNat)
  else if 'a' ≤ c ∧ c ≤ 'f' then some (c.toNat - 'a'.toNat + 10)
  else if 'A' ≤ c ∧ c ≤ 'F' then some (c.toNat - 'A'.toNat + 10)
  else none

/-! ## Words and numbers -/

/-- The value of one of the three words of JSON. -/
def wordValue? (letters : List Char) : Option Json :=
  if letters = ['n', 'u', 'l', 'l'] then some .null
  else if letters = ['t', 'r', 'u', 'e'] then some (.bool true)
  else if letters = ['f', 'a', 'l', 's', 'e'] then some (.bool false)
  else none

/-- A letter that may occur in a word. -/
def isWordChar (c : Char) : Bool :=
  'a' ≤ c && c ≤ 'z'

/-- A number starts with a digit or a minus sign. -/
def startsNumber (c : Char) : Bool :=
  c.isDigit || c = '-'

/-- A character that may occur in a number. -/
def isNumberChar (c : Char) : Bool :=
  c.isDigit || c = '-' || c = '+' || c = '.' || c = 'e' || c = 'E'

/-- The blanks of the JSON grammar. -/
def isBlank (c : Char) : Bool :=
  c = ' ' || c = '\t' || c = '\n' || c = '\r'

/-- The token that a punctuation character is. -/
def punctuation? : Char → Option Token
  | '\x7b' => some .openBrace
  | '\x7d' => some .closeBrace
  | '[' => some .openBracket
  | ']' => some .closeBracket
  | ':' => some .colon
  | ',' => some .comma
  | _ => none

/-! ## The automaton -/

/-- What the scanner is in the middle of; collected characters and pieces are in reverse. -/
inductive Mode where
  | between
  | word (letters : List Char)
  | number (lexeme : List Char)
  | text (pieces : List Piece)
  | escape (pieces : List Piece)
  /-- Inside a hexadecimal escape: digits still to come, and the value of those read. -/
  | hex (pieces : List Piece) (missing : Nat) (value : Nat)

/-- A scanner: its mode, and the tokens found, latest first. -/
structure Scanner where
  mode : Mode
  found : List Token

namespace Scanner

/-- Takes a character that stands between tokens. -/
def stepBetween (found : List Token) (c : Char) : Option Scanner :=
  if isBlank c then some ⟨.between, found⟩
  else if c = '"' then some ⟨.text [], found⟩
  else if startsNumber c then some ⟨.number [c], found⟩
  else if isWordChar c then some ⟨.word [c], found⟩
  else (punctuation? c).map fun token => ⟨.between, token :: found⟩

def wordToken? (letters : List Char) : Option Token :=
  (wordValue? letters.reverse).map .scalar

def numberToken? (lexeme : List Char) : Option Token :=
  (Numeral.parse? lexeme.reverse).map fun numeral => .scalar (numeral.value lexeme.reverse)

def textToken (pieces : List Piece) : Token :=
  .text ((Piece.spell pieces.reverse []).map String.ofList)

def step (s : Scanner) (c : Char) : Option Scanner :=
  match s.mode with
  | .between => stepBetween s.found c
  | .word letters =>
    if isWordChar c then some ⟨.word (c :: letters), s.found⟩
    else (wordToken? letters).bind fun token => stepBetween (token :: s.found) c
  | .number lexeme =>
    if isNumberChar c then some ⟨.number (c :: lexeme), s.found⟩
    else (numberToken? lexeme).bind fun token => stepBetween (token :: s.found) c
  | .text pieces =>
    if c = '"' then some ⟨.between, textToken pieces :: s.found⟩
    else if c = '\\' then some ⟨.escape pieces, s.found⟩
    else if c.toNat < 0x20 then none
    else some ⟨.text (.char c :: pieces), s.found⟩
  | .escape pieces =>
    if c = 'u' then some ⟨.hex pieces 3 0, s.found⟩
    else (escapeChar? c).map fun e => ⟨.text (.char e :: pieces), s.found⟩
  | .hex pieces missing value =>
    (hexValue? c).map fun digit =>
      match missing with
      | 0 => ⟨.text (.unit (value * 16 + digit) :: pieces), s.found⟩
      | missing + 1 => ⟨.hex pieces missing (value * 16 + digit), s.found⟩

/-- Takes the characters of a text one after the other. -/
def run : Scanner → List Char → Option Scanner
  | s, [] => some s
  | s, c :: rest =>
    match s.step c with
    | some next => run next rest
    | none => none

/-- The tokens of a text that ends here; a string may not be left open. -/
def finish? (s : Scanner) : Option (List Token) :=
  match s.mode with
  | .between => some s.found.reverse
  | .word letters => (wordToken? letters).map fun token => (token :: s.found).reverse
  | .number lexeme => (numberToken? lexeme).map fun token => (token :: s.found).reverse
  | .text _ | .escape _ | .hex _ _ _ => none

end Scanner

/-- The tokens of a JSON text; `none` where no token can be read. -/
def tokens? (chars : List Char) : Option (List Token) :=
  (Scanner.run ⟨.between, []⟩ chars).bind Scanner.finish?

end Closedness.Json
