/-!
# TOML values

The value of a TOML document is a tree of tables. Besides its entries a table remembers how it came
about, because that decides which later lines may still add to it; an array remembers whether it
was started by a double-bracket header and may still grow.
-/

namespace Closedness.Toml

/-- How a table came about. -/
inductive Origin where
  /-- Written out in braces; complete from the start. -/
  | inline
  /-- Named by a header of its own. -/
  | header
  /-- Named only as a part of a longer header. -/
  | implied
  /-- Named by the leading parts of a dotted key. -/
  | dotted
deriving DecidableEq

/-- A TOML value. -/
inductive Value where
  | string (value : String)
  | bool (value : Bool)
  /-- A number or a date, as it is written. -/
  | scalar (lexeme : String)
  | array (growing : Bool) (elements : List Value)
  | table (origin : Origin) (entries : List (String × Value))

namespace Value

mutual

/-- The value nests at most `room` arrays and tables written inline. -/
def fits : Value → Nat → Bool
  | .array _ _, 0 => false
  | .array _ elements, room + 1 => allFit elements room
  | .table .inline _, 0 => false
  | .table .inline entries, room + 1 => entriesFit entries room
  | .table _ entries, room => entriesFit entries room
  | _, _ => true

/-- Each element fits in `room`. -/
def allFit : List Value → Nat → Bool
  | [], _ => true
  | element :: rest, room => element.fits room && allFit rest room

/-- The value of each entry fits in `room`. -/
def entriesFit : List (String × Value) → Nat → Bool
  | [], _ => true
  | (_, value) :: rest, room => value.fits room && entriesFit rest room

end

end Value

/-- How many arrays and inline tables may stand inside each other, and how many parts a key may
have. -/
def maxNesting : Nat := 80

/-- The entries of a table, in order. -/
abbrev Entries := List (String × Value)

/-- A parser takes what it reads off the front of a text. -/
abbrev Parser (α : Type) := List Char → Option (α × List Char)

end Closedness.Toml
