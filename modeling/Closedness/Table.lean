import Closedness.Span

/-!
# Tables by declaration

A `Table` holds one entry per declaration id, in the order in which the ids were first entered;
entering an id again replaces its entry in place.
-/

namespace Closedness

/-- One entry of type `α` for each of some declarations. -/
structure Table (α : Type) where
  entries : List (DeclId × α) := []
deriving DecidableEq

namespace Table

variable {α β : Type}

instance : Inhabited (Table α) := ⟨{}⟩

/-- The value under `id` in a list of entries. -/
def find? (id : DeclId) : List (DeclId × α) → Option α
  | [] => none
  | (key, value) :: rest => if key = id then some value else find? id rest

/-- Enters a value into a list of entries. -/
def put (id : DeclId) (value : α) : List (DeclId × α) → List (DeclId × α)
  | [] => [(id, value)]
  | (key, old) :: rest => if key = id then (key, value) :: rest else (key, old) :: put id value rest

def get? (t : Table α) (id : DeclId) : Option α :=
  find? id t.entries

/-- There is an entry for `id`. -/
def contains (t : Table α) (id : DeclId) : Bool :=
  (t.get? id).isSome

/-- Enters a value for `id`. -/
def insert (t : Table α) (id : DeclId) (value : α) : Table α :=
  ⟨put id value t.entries⟩

/-- Enters values one after the other. -/
def ofList (values : List (DeclId × α)) : Table α :=
  values.foldl (fun t v => t.insert v.1 v.2) {}

/-- The ids that have an entry. -/
def keys (t : Table α) : List DeclId :=
  t.entries.map Prod.fst

def size (t : Table α) : Nat :=
  t.entries.length

/-- Changes every entry, given its id. -/
def map (f : DeclId → α → β) (t : Table α) : Table β :=
  ⟨t.entries.map fun e => (e.1, f e.1 e.2)⟩

@[simp] theorem find?_put_self (id : DeclId) (value : α) (entries : List (DeclId × α)) :
    find? id (put id value entries) = some value := by
  induction entries with
  | nil => simp [put, find?]
  | cons e rest ih =>
    by_cases h : e.1 = id
    · simp [put, find?, h]
    · simp [put, find?, h, ih]

theorem find?_put_of_ne {id other : DeclId} (h : other ≠ id) (value : α)
    (entries : List (DeclId × α)) : find? other (put id value entries) = find? other entries := by
  induction entries with
  | nil => simp [put, find?, h.symm]
  | cons e rest ih =>
    by_cases hid : e.1 = id
    · have hother : id ≠ other := h.symm
      simp [put, find?, hid, hother]
    · simp [put, find?, hid, ih]

/-- What is entered is found. -/
@[simp] theorem get?_insert_self (t : Table α) (id : DeclId) (value : α) :
    (t.insert id value).get? id = some value :=
  find?_put_self id value t.entries

/-- Entering a value leaves the entries of other ids alone. -/
theorem get?_insert_of_ne (t : Table α) {id other : DeclId} (h : other ≠ id) (value : α) :
    (t.insert id value).get? other = t.get? other :=
  find?_put_of_ne h value t.entries

/-- Changing every entry keeps the ids. -/
@[simp] theorem keys_map (f : DeclId → α → β) (t : Table α) : (t.map f).keys = t.keys := by
  simp [keys, map, Function.comp_def]

@[simp] theorem size_map (f : DeclId → α → β) (t : Table α) : (t.map f).size = t.size :=
  List.length_map _

/-- A table whose values are mapped answers with the mapped value. -/
@[simp] theorem get?_map (f : DeclId → α → β) (t : Table α) (id : DeclId) :
    (t.map f).get? id = (t.get? id).map (f id) := by
  cases t with
  | mk entries =>
    show find? id (entries.map fun e => (e.1, f e.1 e.2)) = (find? id entries).map (f id)
    induction entries with
    | nil => rfl
    | cons e rest ih =>
      by_cases h : e.1 = id
      · simp [find?, h]
      · simp [find?, h, ih]

/-- The same entries, in whatever order. -/
def same [DecidableEq α] (a b : Table α) : Bool :=
  a.size = b.size && a.entries.all fun e => b.get? e.1 = some e.2

end Table

end Closedness
