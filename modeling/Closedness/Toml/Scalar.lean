import Closedness.Toml.Basic

/-!
# Numbers and dates in TOML

The grammar of what stands in a document without quotes or brackets: truth values, numbers, dates
and times. `scalar` splits off a lexeme, up to a character that means something else, and
`readScalar?` gives its value. A number or a date stays as it is written, because no key of a
configuration takes one; a lexeme that is none of these is refused all the same.

The value of a number is never computed, and two forms pass that have none: a radix without digits,
and a whole number with underscores, which is looked at only around them.
-/

namespace Closedness.Toml

/-! ## Numbers -/

def isHexDigit (c : Char) : Bool :=
  c.isDigit || ('a' ≤ c && c ≤ 'f') || ('A' ≤ c && c ≤ 'F')

def isOctDigit (c : Char) : Bool :=
  '0' ≤ c && c ≤ '7'

def isBinDigit (c : Char) : Bool :=
  c = '0' || c = '1'

/-- One or more digits, in which an underscore may stand between two. -/
def isDigits (isDigit : Char → Bool) : List Char → Bool
  | [] => false
  | [c] => isDigit c
  | c :: '_' :: rest => isDigit c && isDigits isDigit rest
  | c :: rest => isDigit c && isDigits isDigit rest

/-- The whole part of a decimal number: a zero, or digits that do not start with one. -/
def isWhole : List Char → Bool
  | ['0'] => true
  | '0' :: _ => false
  | chars => isDigits Char.isDigit chars

/-- Leaves out a sign. -/
def dropSign : List Char → List Char
  | '+' :: rest => rest
  | '-' :: rest => rest
  | chars => chars

/-- Nothing, or an exponent. -/
def isExponent : List Char → Bool
  | [] => true
  | c :: rest => (c = 'e' || c = 'E') && isDigits Char.isDigit (dropSign rest)

/-- A character of the whole part or of the fraction of a decimal number. -/
def isDecimalChar (c : Char) : Bool :=
  c.isDigit || c = '_'

/-- Nothing, an exponent, or a fraction and perhaps an exponent. -/
def isFractional : List Char → Bool
  | '.' :: rest =>
    isDigits Char.isDigit (rest.takeWhile isDecimalChar) &&
      isExponent (rest.dropWhile isDecimalChar)
  | chars => isExponent chars

/-- A decimal number without a sign. -/
def isDecimal (chars : List Char) : Bool :=
  isWhole (chars.takeWhile isDecimalChar) && isFractional (chars.dropWhile isDecimalChar)

/-- Every underscore stands between two characters that are digits in some radix. -/
def isGrouped : List Char → Bool
  | [] => true
  | '_' :: _ => false
  | [_, '_'] => false
  | a :: '_' :: b :: rest => isHexDigit a && isHexDigit b && isGrouped (b :: rest)
  | _ :: rest => isGrouped rest

/-- A character that is not found in a whole number, with underscores or without. -/
def isForeign (c : Char) : Bool :=
  c = '.' || c = 'e' || c = 'E' || c = ' '

/-- A whole number with underscores, without a sign: its first group consists of digits and does not
start with a zero, and the other groups are looked at only where they meet an underscore. -/
def isGroupedWhole (chars : List Char) : Bool :=
  (chars.dropWhile Char.isDigit).head? = some '_' && chars.head? ≠ some '0' && isGrouped chars &&
    !chars.any isForeign

/-- A number without a sign that is infinite or not a number at all. -/
def isSpecial (chars : List Char) : Bool :=
  chars = ['i', 'n', 'f'] || chars = ['n', 'a', 'n']

/-- A number without a sign, in the usual radix. -/
def isUnsigned (chars : List Char) : Bool :=
  isDecimal chars || isGroupedWhole chars || isSpecial chars

/-- What follows a radix: nothing, or digits. -/
def isRadixDigits (isDigit : Char → Bool) (chars : List Char) : Bool :=
  chars.isEmpty || isDigits isDigit chars

/-- A number. One with a radix has no sign. -/
def isNumber : List Char → Bool
  | '0' :: 'x' :: digits => isRadixDigits isHexDigit digits
  | '0' :: 'o' :: digits => isRadixDigits isOctDigit digits
  | '0' :: 'b' :: digits => isRadixDigits isBinDigit digits
  | chars => isUnsigned (dropSign chars)

/-! ## Dates and times -/

/-- Takes a number of two digits. -/
def twoDigits : Parser Nat
  | a :: b :: rest =>
    if a.isDigit && b.isDigit then some (Nat.ofDigitChars 10 [a, b] 0, rest) else none
  | _ => none

/-- Takes a number of two digits from `low` to `high`. -/
def twoDigitsIn (low high : Nat) : Parser Nat := fun chars =>
  match twoDigits chars with
  | some (n, rest) => if low ≤ n ∧ n ≤ high then some (n, rest) else none
  | none => none

/-- Takes a given character. -/
def skipChar (expected : Char) : List Char → Option (List Char)
  | [] => none
  | c :: rest => if c = expected then some rest else none

/-- A year of the Gregorian calendar with a leap day. -/
def isLeapYear (year : Nat) : Bool :=
  year % 4 = 0 && (year % 100 ≠ 0 || year % 400 = 0)

/-- The number of days of a month. -/
def daysIn (year month : Nat) : Nat :=
  if month = 2 then if isLeapYear year then 29 else 28
  else if month = 4 ∨ month = 6 ∨ month = 9 ∨ month = 11 then 30
  else 31

/-- Takes a date, as in `1979-05-27`. -/
def skipDate (chars : List Char) : Option (List Char) := do
  let (century, chars) ← twoDigits chars
  let (year, chars) ← twoDigits chars
  let (month, chars) ← twoDigitsIn 1 12 (← skipChar '-' chars)
  let (_, chars) ← twoDigitsIn 1 (daysIn (century * 100 + year) month) (← skipChar '-' chars)
  return chars

/-- Takes the fraction of a second, if there is a point. -/
def skipFraction : List Char → Option (List Char)
  | '.' :: c :: rest => if c.isDigit then some (rest.dropWhile Char.isDigit) else none
  | '.' :: [] => none
  | chars => some chars

/-- Takes the seconds of a time of day, if there is a colon. A minute may have a leap second. -/
def skipSeconds : List Char → Option (List Char)
  | ':' :: rest => do
    let (_, rest) ← twoDigitsIn 0 60 rest
    skipFraction rest
  | chars => some chars

/-- Takes a time of day, as in `07:32:00.5` or `07:32`. -/
def skipTime (chars : List Char) : Option (List Char) := do
  let (_, chars) ← twoDigitsIn 0 23 chars
  let (_, chars) ← twoDigitsIn 0 59 (← skipChar ':' chars)
  skipSeconds chars

/-- Takes the hours and minutes of an offset from universal time. -/
def skipOffset (chars : List Char) : Option (List Char) := do
  let (_, chars) ← twoDigitsIn 0 23 chars
  let (_, chars) ← twoDigitsIn 0 59 (← skipChar ':' chars)
  return chars

/-- Nothing, or an offset from universal time. -/
def isOffset : List Char → Bool
  | [] => true
  | ['Z'] => true
  | ['z'] => true
  | '+' :: rest => skipOffset rest = some []
  | '-' :: rest => skipOffset rest = some []
  | _ => false

/-- Nothing, or a time of day on the date before it. -/
def isTimeOfDate : List Char → Bool
  | [] => true
  | c :: rest => (c = 'T' || c = 't' || c = ' ') && (skipTime rest).any isOffset

/-- A date, a date and a time, or a time of day. Only with a date has a time an offset. -/
def isMoment (chars : List Char) : Bool :=
  (skipDate chars).any isTimeOfDate || skipTime chars = some []

/-! ## Lexemes -/

/-- The value of a lexeme. -/
def readScalar? (lexeme : List Char) : Option Value :=
  if lexeme = ['t', 'r', 'u', 'e'] then some (.bool true)
  else if lexeme = ['f', 'a', 'l', 's', 'e'] then some (.bool false)
  else if isNumber lexeme || isMoment lexeme then some (.scalar (String.ofList lexeme))
  else none

/-- A character that ends a lexeme wherever it stands. -/
def endsScalar (c : Char) : Bool :=
  c = '=' || c = ',' || c = '[' || c = ']' || c = '\x7b' || c = '\x7d' || c = '#' || c = '\r' ||
    c = '\n'

/-- A character that cannot go on with a lexeme after a blank. -/
def startsOther (c : Char) : Bool :=
  c = '.' || c = '"' || c = '\x27'

/-- Splits a text after its first lexeme. Blanks belong to the lexeme when it goes on after them, as
between a date and its time. The characters of the lexeme so far and the blanks after them are kept
in reverse. -/
def splitScalar (found blanks : List Char) : List Char → List Char × List Char
  | [] => (found.reverse, blanks.reverse)
  | c :: rest =>
    if c = ' ' || c = '\t' then splitScalar found (c :: blanks) rest
    else if endsScalar c || (!blanks.isEmpty && startsOther c) then
      (found.reverse, blanks.reverse ++ c :: rest)
    else splitScalar (c :: (blanks ++ found)) [] rest

/-- A truth value, a number, a date or a time. -/
def scalar : Parser Value := fun chars =>
  let (lexeme, rest) := splitScalar [] [] chars
  (readScalar? lexeme).map fun value => (value, rest)

end Closedness.Toml
