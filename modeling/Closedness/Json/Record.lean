import Closedness.Json.Basic

/-!
# Records and tagged values in JSON

A record may be written in two ways: by name, as an object, or by position, as an array of its
fields in declaration order. Either way `Json.record?` gives the fields present, by name; a known
field given twice and an element too many are refused, and members under other names are ignored.

A value of one of several kinds carries its kind beside its fields: in an object as the member
`kind`, in an array as the first element. `Json.variant?` splits such a value into the name of its
kind and the record of its fields.
-/

namespace Closedness.Json

/-- The fields present in a record, by name. -/
abbrev Fields := List (String × Json)

/-- The value under `name`, if it is present; a second one is an error. -/
def member? (members : Fields) (name : String) : Option (Option Json) :=
  match members.filter fun m => m.1 = name with
  | [] => some none
  | [(_, value)] => some (some value)
  | _ => none

/-- No member's name repeats that of an earlier one. -/
def uniqueNames (members : Fields) : Bool :=
  decide (members.map Prod.fst).Nodup

/-- The fields of a record whose field names are `names`, in declaration order. -/
def record? (names : List String) : Json → Option Fields
  | .object members =>
    let known := members.filter fun m => m.1 ∈ names
    if uniqueNames known then some known else none
  | .array elements => if elements.length ≤ names.length then some (names.zip elements) else none
  | _ => none

/-- The fields of a record that may hold no others. -/
def strictRecord? (names : List String) (value : Json) : Option Fields :=
  match value with
  | .object members => if members.all fun m => m.1 ∈ names then value.record? names else none
  | _ => value.record? names

/-- Splits a value that carries its kind into the kind and the rest. -/
def untag? : Json → Option (Json × Json)
  | .object members =>
    match member? members "kind" with
    | some (some kind) => some (kind, .object (members.filter fun m => m.1 ≠ "kind"))
    | _ => none
  | .array (kind :: fields) => some (kind, .array fields)
  | _ => none

/-- A kind is given by its name or by its place among `kinds`. -/
def kindName? (kinds : List String) : Json → Option String
  | .string name => if name ∈ kinds then some name else none
  | .natural place => kinds[place]?
  | _ => none

/-- The kind of a tagged value, and the record of its fields. -/
def variant? (kinds : List String) (value : Json) : Option (String × Json) := do
  let (tag, fields) ← value.untag?
  return (← kindName? kinds tag, fields)

/-- The kind is given by its name. -/
def tagIsName (value : Json) : Bool :=
  match value.untag? with
  | some (.string _, _) => true
  | _ => false

/-! ## Scalars, lists and options -/

def readString : Json → Option String
  | .string s => some s
  | _ => none

def readBool : Json → Option Bool
  | .bool b => some b
  | _ => none

/-- Reads one of several names: the name itself, or an object with `null` under that name. -/
def readName {α : Type} (named : List (String × α)) : Json → Option α
  | .string name => named.lookup name
  | .object [(name, .null)] => named.lookup name
  | _ => none

/-- Reads a natural number below 2^32. -/
def readUInt32 : Json → Option UInt32
  | .natural n => if h : n < UInt32.size then some (UInt32.ofNatLT n h) else none
  | _ => none

/-- Reads a natural number below 2^64. -/
def readUInt64 : Json → Option UInt64
  | .natural n => if h : n < UInt64.size then some (UInt64.ofNatLT n h) else none
  | _ => none

/-- Reads an array, element by element. -/
def readList {α : Type} (read : Json → Option α) : Json → Option (List α)
  | .array elements => elements.mapM read
  | _ => none

/-- Reads a value that may be `null`. -/
def readOption {α : Type} (read : Json → Option α) : Json → Option (Option α)
  | .null => some none
  | value => (read value).map some

namespace Fields

/-- A field that must be present. -/
def required {α : Type} (fields : Fields) (name : String) (read : Json → Option α) : Option α :=
  (fields.lookup name).bind read

/-- A field that has a value of its own when it is absent. -/
def withDefault {α : Type} (fields : Fields) (name : String) (default : α)
    (read : Json → Option α) : Option α :=
  match fields.lookup name with
  | none => some default
  | some value => read value

/-- A list that is empty when it is absent. -/
def list {α : Type} (fields : Fields) (name : String) (read : Json → Option α) :
    Option (List α) :=
  fields.withDefault name [] (readList read)

/-- A flag that is off when it is absent. -/
def flag (fields : Fields) (name : String) : Option Bool :=
  fields.withDefault name false readBool

/-- A value that may be absent or `null`. -/
def optional {α : Type} (fields : Fields) (name : String) (read : Json → Option α) :
    Option (Option α) :=
  fields.withDefault name none (readOption read)

end Fields

/-! ## Writing -/

/-- A list as an array. -/
def ofList {α : Type} (write : α → Json) (values : List α) : Json :=
  .array (values.map write)

/-- An absent value is `null`. -/
def ofOption {α : Type} (write : α → Json) : Option α → Json
  | none => .null
  | some value => write value

end Closedness.Json
