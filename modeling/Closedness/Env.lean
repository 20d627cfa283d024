import Closedness.Level
import Closedness.Table

/-!
# What is known of variables

An `Env` holds what is known of each variable in scope, in frames: one for the method, and one for
each scope entered since. The frame of the method is never left. Branches run on copies of one
environment; `Env.merge` joins two outcomes, taking the weaker fact about each variable.
-/

namespace Closedness

/-- What is known of one variable. -/
structure VarState where
  /-- The level of its value. -/
  level : ValueLevel
  /-- The level it is annotated with. Values assigned to it are judged by that level and leave it
  as it is. -/
  pinned : Option Level := none
  /-- Where that annotation stands, if it is one of the variable itself. -/
  pinnedAt : Option Span := none
  /-- Its static type. -/
  type : Option String := none
deriving DecidableEq

namespace VarState

/-- A variable that takes the level of whatever is assigned to it. -/
def plain (level : ValueLevel) (type : Option String) : VarState :=
  { level, type }

/-- A variable that keeps the level it is annotated with. -/
def pin (level : Level) (span : Option Span) (type : Option String) : VarState :=
  { level := .level level, pinned := some level, pinnedAt := span, type }

/-- A variable that holds a value of its declared kind: unverified, pinned or inheriting. -/
def ofBinding (binding : Binding) (span : Option Span) (type : Option String) : VarState :=
  match binding with
  | .noInherit => plain .unchecked type
  | .level .inherit => plain .inherit type
  | .level l => pin l span type

end VarState

/-- The variables of one scope. -/
abbrev Frame := Table VarState

/-- The variables in scope. -/
structure Env where
  /-- The scope entered last. -/
  inner : Frame := {}
  /-- The scopes around it, innermost first. -/
  outer : List Frame := []
deriving DecidableEq

namespace Env

instance : Inhabited Env := ⟨{}⟩

/-- All scopes, innermost first. -/
def frames (env : Env) : List Frame :=
  env.inner :: env.outer

/-- Enters a scope. -/
def push (env : Env) : Env :=
  { inner := {}, outer := env.frames }

/-- Leaves the scope entered last, unless it is that of the method. -/
def pop (env : Env) : Env :=
  match env.outer with
  | [] => env
  | frame :: rest => { inner := frame, outer := rest }

@[simp] theorem frames_push (env : Env) : env.push.frames = {} :: env.frames := rfl

/-- Leaving a scope just entered changes nothing. -/
@[simp] theorem pop_push (env : Env) : env.push.pop = env := rfl

/-- Adds a variable to the scope entered last. -/
def declare (env : Env) (id : DeclId) (state : VarState) : Env :=
  { env with inner := env.inner.insert id state }

/-- The variable `id` of the innermost scope that has it. -/
def lookup (id : DeclId) : List Frame → Option VarState
  | [] => none
  | frame :: rest =>
    match frame.get? id with
    | some state => some state
    | none => lookup id rest

/-- What is known of a variable. -/
def get? (env : Env) (id : DeclId) : Option VarState :=
  lookup id env.frames

@[simp] theorem get?_declare_self (env : Env) (id : DeclId) (state : VarState) :
    (env.declare id state).get? id = some state := by
  simp [get?, frames, declare, lookup]

/-- Declaring a variable does not change what is found for the others. -/
theorem get?_declare_of_ne (env : Env) {id other : DeclId} (h : other ≠ id) (state : VarState) :
    (env.declare id state).get? other = env.get? other := by
  simp [get?, frames, declare, lookup, Table.get?_insert_of_ne _ h]

/-- The level of a variable. -/
def level? (env : Env) (id : DeclId) : Option ValueLevel :=
  (env.get? id).map VarState.level

/-- Sets the level of a variable in one scope. -/
def setIn (id : DeclId) (level : ValueLevel) (frame : Frame) : Frame :=
  frame.map fun key state => if key = id then { state with level } else state

/-- Sets the level of a variable in the innermost of the scopes that have it. -/
def setLevel (id : DeclId) (level : ValueLevel) : List Frame → List Frame
  | [] => []
  | frame :: rest =>
    if frame.contains id then setIn id level frame :: rest
    else frame :: setLevel id level rest

/-- Sets the level of a variable; nothing changes when it is not in scope. -/
def assign (env : Env) (id : DeclId) (level : ValueLevel) : Env :=
  if env.inner.contains id then { env with inner := setIn id level env.inner }
  else { env with outer := setLevel id level env.outer }

/-- What is known of a variable of one path once another path joins it: the weaker level, if the
other path knows the variable. -/
def join (other : Env) (id : DeclId) (state : VarState) : VarState :=
  match other.level? id with
  | some level => { state with level := state.level.meet level }
  | none => state

/-- Joins the outcome of another control-flow path: each variable of this one takes the weaker of
its levels on both, and variables of the other alone are forgotten. -/
def merge (env other : Env) : Env :=
  { inner := env.inner.map other.join, outer := env.outer.map (Table.map other.join) }

@[simp] theorem frames_merge (env other : Env) :
    (env.merge other).frames = env.frames.map (Table.map other.join) := rfl

/-- Joining another path keeps the variables of every scope. -/
theorem map_keys_frames_merge (env other : Env) :
    (env.merge other).frames.map Table.keys = env.frames.map Table.keys := by
  simp [Function.comp_def]

/-- The same scopes with the same variables. -/
def same (a b : Env) : Bool :=
  a.outer.length = b.outer.length
    && (a.frames.zip b.frames).all fun f => f.1.same f.2

end Env

end Closedness
