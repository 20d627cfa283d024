import Closedness.Toml.Scalar
import Closedness.Toml.Table
import Closedness.Toml.Text

/-!
# TOML documents

`Toml.parse? : String → Option Entries` reads a document of TOML version 1.1. A document is a list
of statements, one on a line: a key with its value, or the header of a table. Arrays and inline
tables may stand inside each other up to a limit, `maxNesting`.
-/

namespace Closedness.Toml

/-! ## Values -/

/-- The value of a string. -/
def stringValue : Option (String × List Char) → Option (Value × List Char) :=
  Option.map fun s => (.string s.1, s.2)

mutual

/-- A value; its arrays and inline tables hold fewer than `fuel` values on any way into it. -/
def value : Nat → Parser Value
  | 0, _ => none
  | _ + 1, '"' :: '"' :: '"' :: rest =>
    stringValue (longBasicString .text [] (skipFirstLineEnd rest))
  | _ + 1, '\x27' :: '\x27' :: '\x27' :: rest =>
    stringValue (longLiteralString [] (skipFirstLineEnd rest))
  | _ + 1, '"' :: rest => stringValue (basicString [] rest)
  | _ + 1, '\x27' :: rest => stringValue (literalString [] rest)
  | fuel + 1, '[' :: rest => elements fuel [] rest
  | fuel + 1, '\x7b' :: rest => inlineEntries fuel [] rest
  | _ + 1, chars => scalar chars

/-- The elements of an array, after those found; a comma may follow the last one. -/
def elements : Nat → List Value → Parser Value
  | 0, _, _ => none
  | fuel + 1, found, chars => do
    match ← skipTrivia false chars with
    | ']' :: rest => some (.array false found.reverse, rest)
    | chars =>
      let (element, rest) ← value fuel chars
      match ← skipTrivia false rest with
      | ',' :: rest => elements fuel (element :: found) rest
      | ']' :: rest => some (.array false (element :: found).reverse, rest)
      | _ => none

/-- The entries of an inline table, after those found; a comma may follow the last one. -/
def inlineEntries : Nat → Entries → Parser Value
  | 0, _, _ => none
  | fuel + 1, found, chars => do
    match ← skipTrivia false chars with
    | '\x7d' :: rest => some (.table .inline found, rest)
    | chars =>
      let (path, rest) ← key chars
      let (entry, rest) ← value fuel (skipBlanks (← skipChar '=' rest))
      let entries ← addDotted? entry none path found
      match ← skipTrivia false rest with
      | ',' :: rest => inlineEntries fuel entries rest
      | '\x7d' :: rest => some (.table .inline entries, rest)
      | _ => none

end

/-! ## Statements -/

/-- A line of a document. -/
inductive Statement where
  | entry (path : List String) (value : Value)
  | header (path : List String)
  | arrayHeader (path : List String)

/-- A statement, without the end of its line. -/
def statement : Parser Statement
  | '[' :: '[' :: rest => do
    let (path, rest) ← key (skipBlanks rest)
    match rest with
    | ']' :: ']' :: rest => some (.arrayHeader path, rest)
    | _ => none
  | '[' :: rest => do
    let (path, rest) ← key (skipBlanks rest)
    match rest with
    | ']' :: rest => some (.header path, rest)
    | _ => none
  | chars => do
    let (path, rest) ← key chars
    let (entry, rest) ← value (2 * rest.length + 2) (skipBlanks (← skipChar '=' rest))
    if entry.fits maxNesting then some (.entry path entry, rest) else none

/-- The statements of a document, after those found; at most `fuel` of them. -/
def statements : Nat → List Statement → List Char → Option (List Statement)
  | 0, _, _ => none
  | fuel + 1, found, chars => do
    match ← skipTrivia false chars with
    | [] => some found.reverse
    | chars =>
      let (s, rest) ← statement chars
      statements fuel (s :: found) (← endLine rest)

/-! ## Documents -/

/-- Adds statements to a document; `current` is the path of the last header. -/
def build? : List String → Entries → List Statement → Option Entries
  | _, root, [] => some root
  | current, root, .entry path value :: rest => do
    build? current (← changeAt? (addDotted? value none path) current root) rest
  | _, root, .header path :: rest => do
    let last ← path.getLast?
    build? path (← changeAt? (openTable? last) path.dropLast root) rest
  | _, root, .arrayHeader path :: rest => do
    let last ← path.getLast?
    build? path (← changeAt? (openElement? last) path.dropLast root) rest

/-- A byte order mark at the start of a text is not part of the document. -/
def skipMark : List Char → List Char
  | '\uFEFF' :: rest => rest
  | chars => chars

/-- The table that a TOML text describes. -/
def parse? (text : String) : Option Entries := do
  let chars := skipMark text.toList
  build? [] [] (← statements (chars.length + 1) [] chars)

end Closedness.Toml
