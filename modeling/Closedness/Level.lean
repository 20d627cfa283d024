/-!
# Closedness levels

A `Level` says how far a term depends on its surroundings: `closed` terms have no free variables,
`bound` ones may, and `inherit` is the placeholder of a value that takes the level of whatever it
is read from. They are ordered by strength, `inherit < bound < closed`.

A declaration resolves to a `Binding`: a level, or the request not to infer anything. An evaluated
expression has a `ValueLevel`, which adds the null value, the unverified value, and the value read
out of a receiver: the latter counts as its receiver's level where it is judged, and is forgotten
where it is stored.
-/

namespace Closedness

/-- How far a term depends on its surroundings. -/
inductive Level where
  /-- Takes the level of the structure the value is read from. -/
  | inherit
  | bound
  | closed
deriving DecidableEq, Inhabited

namespace Level

/-- The place of a level in the order of strength. -/
def strength : Level → Nat
  | .inherit => 0
  | .bound => 1
  | .closed => 2

/-- The level says something by itself. -/
def isExplicit (l : Level) : Bool :=
  l ≠ .inherit

/-- The weaker of two facts about one value. -/
def meet (a b : Level) : Level :=
  if a.strength ≤ b.strength then a else b

theorem meet_comm (a b : Level) : a.meet b = b.meet a := by
  cases a <;> cases b <;> rfl

/-- Three paths may join in any grouping. -/
theorem meet_assoc (a b c : Level) : (a.meet b).meet c = a.meet (b.meet c) := by
  cases a <;> cases b <;> cases c <;> rfl

@[simp] theorem meet_self (a : Level) : a.meet a = a := by
  cases a <;> rfl

/-- A value of level `actual` may fill a position that requires `required`. A position that asks
for nothing takes everything; a level that was not resolved fills no other position. -/
def accepts (required actual : Level) : Bool :=
  match required, actual with
  | .inherit, _ => true
  | _, .inherit => false
  | required, actual => required.strength ≤ actual.strength

/-- The level of a member of level `actual` when its receiver has level `receiver`. -/
def resolveInherit (actual receiver : Level) : Level :=
  match actual with
  | .inherit => receiver
  | explicit => explicit

/-- What a value whose receiver is unknown counts as where a level is required. -/
def unresolvedInherit : Level := .bound

/-- The level as it is annotated in a program. -/
def display : Level → String
  | .inherit => "@Inherit"
  | .bound => "@Bound"
  | .closed => "@Closed"

end Level

/-- What the annotations of a declaration ask for. -/
inductive Binding where
  | level (level : Level)
  /-- Nothing is inferred; the value is reviewed by hand. -/
  | noInherit
deriving DecidableEq

namespace Binding

/-- Without an annotation a declaration inherits. -/
instance : Inhabited Binding := ⟨.level .inherit⟩

/-- The level asked for, if any. -/
def level? : Binding → Option Level
  | .level l => some l
  | .noInherit => none

/-- The level asked for, if it says something by itself. -/
def explicit? : Binding → Option Level
  | .level .inherit => none
  | .level l => some l
  | .noInherit => none

end Binding

/-- The level of an evaluated expression. -/
inductive ValueLevel where
  /-- The null value, which satisfies every requirement. -/
  | null
  /-- A value that nothing is inferred about. -/
  | unchecked
  | level (level : Level)
  /-- An inheriting member, read through a receiver of the given level. -/
  | inherited (receiver : Level)
deriving DecidableEq

namespace ValueLevel

/-- The level of a value about which nothing is known. -/
abbrev inherit : ValueLevel := .level .inherit

instance : Inhabited ValueLevel := ⟨inherit⟩

/-- The level of an inheriting member read through `receiver`: a receiver of known level decides
it where the member is used, and an unverified receiver leaves the member unverified. -/
def inheritedFrom : ValueLevel → ValueLevel
  | .level .inherit | .null => inherit
  | .level l => .inherited l
  | .inherited receiver => .inherited receiver
  | .unchecked => .unchecked

/-- The level of a value that comes from either of two control-flow paths: `null` adds nothing, an
unverified path makes the value unverified, and a member stays one read through a receiver as long
as neither path is plainly inheriting. -/
def meet : ValueLevel → ValueLevel → ValueLevel
  | .null, other => other
  | other, .null => other
  | .unchecked, _ => .unchecked
  | _, .unchecked => .unchecked
  | .level a, .level b => .level (a.meet b)
  | .level .inherit, .inherited _ => inherit
  | .inherited _, .level .inherit => inherit
  | .level a, .inherited b => .inherited (a.meet b)
  | .inherited a, .level b => .inherited (a.meet b)
  | .inherited a, .inherited b => .inherited (a.meet b)

/-- Null says nothing about a level: a path that gives null leaves the other one's level. -/
@[simp] theorem null_meet (v : ValueLevel) : meet .null v = v := by
  cases v <;> rfl

@[simp] theorem meet_null (v : ValueLevel) : meet v .null = v := by
  cases v <;> rfl

theorem meet_comm (a b : ValueLevel) : a.meet b = b.meet a := by
  rcases a with _ | _ | a | a <;> rcases b with _ | _ | b | b <;> try rfl
  all_goals cases a <;> cases b <;> rfl

theorem meet_assoc (a b c : ValueLevel) : (a.meet b).meet c = a.meet (b.meet c) := by
  rcases a with _ | _ | a | a <;> rcases b with _ | _ | b | b <;> rcases c with _ | _ | c | c <;>
    (try cases a) <;> (try cases b) <;> (try cases c) <;> rfl

@[simp] theorem meet_self (v : ValueLevel) : v.meet v = v := by
  rcases v with _ | _ | l | l <;> (try cases l) <;> rfl

/-- The level the value gives to members read through it. -/
def receiverLevel? : ValueLevel → Option Level
  | .level l => some l
  | .inherited receiver => some receiver
  | .null | .unchecked => none

/-- The level a variable without annotation takes from the value: it does not remember a
receiver. -/
def stored : ValueLevel → ValueLevel
  | .inherited _ | .null => inherit
  | other => other

/-- The level a pattern variable takes from the value: it settles for the receiver's level. -/
def matched : ValueLevel → ValueLevel
  | .inherited receiver => .level receiver
  | .null => inherit
  | other => other

/-- The level the value is known to have. -/
def explicit? (v : ValueLevel) : Option Level :=
  v.receiverLevel?.filter Level.isExplicit

/-- The level as it is shown to a reader. -/
def display : ValueLevel → String
  | .null => "null"
  | .unchecked => "@NoInherit"
  | .level l => l.display
  | .inherited receiver => receiver.display ++ " (inherited)"

end ValueLevel

end Closedness
