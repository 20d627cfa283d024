/-!
# JSON values

The value a JSON text denotes. Two things are kept that a plain reading would lose, because
whether a text is acceptable depends on them:

* a number is a `natural` when it is written with digits only, and otherwise a `decimal` that
  keeps its spelling, since a position asking for an integer takes no other spelling;
* a value that is grammatical but denotes nothing (a string with half a surrogate pair, a number
  past every double, an object with such a string as a key) is `undecodable`: it may be skipped,
  and is refused wherever it is read.
-/

namespace Closedness

/-- A JSON value; the members of an object keep their order and their repetitions. -/
inductive Json where
  | null
  | bool (value : Bool)
  | natural (value : Nat)
  | decimal (lexeme : String)
  | string (value : String)
  | array (elements : List Json)
  | object (members : List (String × Json))
  | undecodable
deriving Inhabited

namespace Json

mutual

/-- Every part of the value is decodable and it nests at most `room` arrays and objects. -/
def fits : Json → Nat → Bool
  | .array _, 0 => false
  | .array elements, room + 1 => allFit elements room
  | .object _, 0 => false
  | .object members, room + 1 => membersFit members room
  | .undecodable, _ => false
  | _, _ => true

/-- Each element fits in `room`. -/
def allFit : List Json → Nat → Bool
  | [], _ => true
  | element :: rest, room => element.fits room && allFit rest room

/-- Each member's value fits in `room`. -/
def membersFit : List (String × Json) → Nat → Bool
  | [], _ => true
  | (_, value) :: rest, room => value.fits room && membersFit rest room

end

end Json

end Closedness
