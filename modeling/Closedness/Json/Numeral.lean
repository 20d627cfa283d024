import Closedness.Json.Basic
import Closedness.Json.Double

/-!
# JSON numbers

The grammar of a JSON number and the value it stands for. `Numeral.parse?` splits a lexeme into
its parts, `Numeral.isFinite` says whether its double is finite, and `Numeral.value` is the JSON
value: a natural number, another decimal, or nothing when the number is past every double.

The double of a number is the product of two: that of its leading digits, as many as fit in 64
bits, and that of a power of ten. Near the greatest double this differs from rounding the number
itself, so a number may be past every double by the one reading and not by the other.
-/

namespace Closedness.Json

/-- The parts of a number: `-whole.fractionEexponent`. -/
structure Numeral where
  negative : Bool
  whole : List Char
  fraction : List Char
  /-- Sign and digits of the exponent; `none` when there is no exponent. -/
  exponent : Option (Bool × List Char)

namespace Numeral

/-- The number that a list of decimal digits writes. -/
def ofDigits (digits : List Char) : Nat :=
  Nat.ofDigitChars 10 digits 0

/-- Splits off a leading minus sign. -/
def takeMinus : List Char → Bool × List Char
  | '-' :: rest => (true, rest)
  | chars => (false, chars)

/-- Splits off the whole part: a single zero, or digits that do not start with one. -/
def takeWhole? (chars : List Char) : Option (List Char × List Char) :=
  match chars.takeWhile Char.isDigit with
  | [] => none
  | ['0'] => some (['0'], chars.dropWhile Char.isDigit)
  | '0' :: _ => none
  | digits => some (digits, chars.dropWhile Char.isDigit)

/-- Splits off a run of at least one digit. -/
def takeDigits? (chars : List Char) : Option (List Char × List Char) :=
  match chars.takeWhile Char.isDigit with
  | [] => none
  | digits => some (digits, chars.dropWhile Char.isDigit)

/-- Splits off the fraction, if there is a point. -/
def takeFraction? : List Char → Option (List Char × List Char)
  | '.' :: rest => takeDigits? rest
  | chars => some ([], chars)

/-- Splits off the sign of an exponent; no sign means plus. -/
def takeSign : List Char → Bool × List Char
  | '-' :: rest => (true, rest)
  | '+' :: rest => (false, rest)
  | chars => (false, chars)

/-- Reads what follows the fraction: nothing, or an exponent and then nothing. -/
def takeExponent? : List Char → Option (Option (Bool × List Char))
  | [] => some none
  | c :: rest =>
    if c = 'e' ∨ c = 'E' then
      let (negative, unsigned) := takeSign rest
      match takeDigits? unsigned with
      | some (digits, []) => some (some (negative, digits))
      | _ => none
    else none

/-- Reads a whole lexeme as a number. -/
def parse? (lexeme : List Char) : Option Numeral := do
  let (negative, unsigned) := takeMinus lexeme
  let (whole, afterWhole) ← takeWhole? unsigned
  let (fraction, afterFraction) ← takeFraction? afterWhole
  let exponent ← takeExponent? afterFraction
  return { negative, whole, fraction, exponent }

/-! ## The double of a number -/

/-- Digits read so far, as a number, and the power of ten that scales it. -/
structure Scaled where
  significand : Nat
  exponent : Int

/-- The greatest significand that is collected. -/
def maxSignificand : Nat := 0xFFFFFFFFFFFFFFFF

/-- The significand after one more digit, if it still fits. -/
def pushDigit? (significand : Nat) (c : Char) : Option Nat :=
  let pushed := significand * 10 + (c.toNat - '0'.toNat)
  if pushed ≤ maxSignificand then some pushed else none

/-- Reads the digits before the point. From the first that does not fit on they only scale. -/
def readWhole (significand : Nat) : List Char → Scaled
  | [] => { significand, exponent := 0 }
  | c :: rest =>
    match pushDigit? significand c with
    | some pushed => readWhole pushed rest
    | none => { significand, exponent := rest.length + 1 }

-- the equations of `readWhole` themselves make Lean evaluate the comparison with `maxSignificand`
theorem readWhole_nil (significand : Nat) :
    readWhole significand [] = { significand, exponent := 0 } := rfl

theorem readWhole_cons {significand pushed : Nat} {c : Char}
    (h : pushDigit? significand c = some pushed) (rest : List Char) :
    readWhole significand (c :: rest) = readWhole pushed rest := by
  show (match pushDigit? significand c with
    | some pushed => readWhole pushed rest
    | none => _) = _
  rw [h]

/-- Reads the digits after the point. From the first that does not fit on they are left out. -/
def readFraction (read : Scaled) : List Char → Scaled
  | [] => read
  | c :: rest =>
    match pushDigit? read.significand c with
    | some pushed => readFraction { significand := pushed, exponent := read.exponent - 1 } rest
    | none => read

/-- The exponent as it is written. -/
def writtenExponent (n : Numeral) : Int :=
  match n.exponent with
  | none => 0
  | some (true, digits) => -(ofDigits digits : Int)
  | some (false, digits) => ofDigits digits

/-- The leading digits of a number and the power of ten that scales them. -/
def scaled (n : Numeral) : Scaled :=
  let read := readFraction (readWhole 0 n.whole) n.fraction
  { read with exponent := read.exponent + n.writtenExponent }

/-- The greatest exponent whose power of ten is a double. -/
def maxExponent : Int := 308

/-- The double of the number is finite. Dividing by a power of ten never leads past the greatest
double, multiplying by one may. -/
def isFinite (n : Numeral) : Bool :=
  let read := n.scaled
  if read.significand = 0 ∨ read.exponent < 0 then true
  else if maxExponent < read.exponent then false
  else
    Double.nearest read.significand * Double.nearest (Nat.pow 10 read.exponent.toNat) <
      Double.overflowBound

/-- The number is a natural number written with digits only. -/
def isNatural (n : Numeral) : Bool :=
  !n.negative && n.fraction.isEmpty && n.exponent.isNone

/-- The JSON value of a number written as `lexeme`. -/
def value (n : Numeral) (lexeme : List Char) : Json :=
  if !n.isFinite then .undecodable
  else if n.isNatural then .natural (ofDigits n.whole)
  else .decimal (String.ofList lexeme)

end Numeral

end Closedness.Json
