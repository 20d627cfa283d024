import Closedness.Toml.Basic

/-!
# Adding to tables

A document is read line by line; each line adds to the tables that the lines before have made.
Which table may still be added to is a matter of how it came about:

* a key is given once;
* a dotted key goes through tables that dotted keys or longer headers have made, and ends in one
  made by dotted keys alone;
* a header goes through any table that is not written inline, and names a table that is new or only
  implied so far;
* a double-bracket header names an array that is new or was made by such a header; going through
  such an array means going through its last table.
-/

namespace Closedness.Toml

namespace Entries

/-- The value under a key. -/
def get? (entries : Entries) (key : String) : Option Value :=
  entries.lookup key

/-- Gives a key a value, in the place of the one it has or at the end. -/
def set (entries : Entries) (key : String) (value : Value) : Entries :=
  match entries with
  | [] => [(key, value)]
  | (k, v) :: rest => if k = key then (k, value) :: rest else (k, v) :: set rest key value

/-- Adds a key that is not there yet. -/
def add? (entries : Entries) (key : String) (value : Value) : Option Entries :=
  match get? entries key with
  | none => some (set entries key value)
  | some _ => none

end Entries

/-- Changes the last table of an array made by double-bracket headers. -/
def changeLast? (change : Entries → Option Entries) : List Value → Option (List Value)
  | [] => none
  | [.table origin entries] => (change entries).map fun changed => [.table origin changed]
  | [_] => none
  | first :: rest => (changeLast? change rest).map (first :: ·)

/-- Adds a value under a dotted key. `origin` is how the table that is added to came about, if a
part of the key led there. -/
def addDotted? (value : Value) (origin : Option Origin) : List String → Entries → Option Entries
  | [], _ => none
  | [key], entries =>
    if origin = none ∨ origin = some .dotted then Entries.add? entries key value else none
  | key :: rest, entries =>
    match Entries.get? entries key with
    | none =>
      (addDotted? value (some .dotted) rest []).map fun inner =>
        Entries.set entries key (.table .dotted inner)
    | some (.table .implied inner) =>
      (addDotted? value (some .implied) rest inner).map fun inner =>
        Entries.set entries key (.table .implied inner)
    | some (.table .dotted inner) =>
      (addDotted? value (some .dotted) rest inner).map fun inner =>
        Entries.set entries key (.table .dotted inner)
    | some (.array true elements) =>
      (changeLast? (addDotted? value (some .header) rest) elements).map fun elements =>
        Entries.set entries key (.array true elements)
    | some _ => none

/-- Changes the table that a path leads to; tables that are not there yet are implied. -/
def changeAt? (change : Entries → Option Entries) : List String → Entries → Option Entries
  | [], entries => change entries
  | key :: rest, entries =>
    match Entries.get? entries key with
    | none =>
      (changeAt? change rest []).map fun inner => Entries.set entries key (.table .implied inner)
    | some (.table .inline _) => none
    | some (.table origin inner) =>
      (changeAt? change rest inner).map fun inner => Entries.set entries key (.table origin inner)
    | some (.array true elements) =>
      (changeLast? (changeAt? change rest) elements).map fun elements =>
        Entries.set entries key (.array true elements)
    | some _ => none

/-- Names a table by a header. -/
def openTable? (key : String) (entries : Entries) : Option Entries :=
  match Entries.get? entries key with
  | none => some (Entries.set entries key (.table .header []))
  | some (.table .implied inner) => some (Entries.set entries key (.table .header inner))
  | some _ => none

/-- Starts a further table of an array by a double-bracket header. -/
def openElement? (key : String) (entries : Entries) : Option Entries :=
  match Entries.get? entries key with
  | none => some (Entries.set entries key (.array true [.table .header []]))
  | some (.array true elements) =>
    some (Entries.set entries key (.array true (elements ++ [.table .header []])))
  | some _ => none

end Closedness.Toml
