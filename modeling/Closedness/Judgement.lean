import Closedness.Level

/-!
# Judging a value at a position

`judge required value site` compares the level of a value with the level its position requires.
The two kinds of sites differ only in a value whose receiver is unknown: an annotated variable
vouches for it, everywhere else it counts as `Level.unresolvedInherit`.
-/

namespace Closedness

/-- Where a value meets a requirement. -/
inductive Site where
  /-- An argument of a call or construction, or a returned value. -/
  | strict
  /-- The value given to an annotated variable. -/
  | declaration
deriving DecidableEq

/-- The outcome of comparing a value with a requirement. -/
inductive Verdict where
  | pass
  /-- The value is weaker than required. -/
  | mismatch (actual : Level)
  /-- The value is stronger than required and is cast down. -/
  | cast (actual : Level)
  /-- Nothing is inferred about the value. -/
  | unchecked
deriving DecidableEq

/-- Compares a resolved level with a requirement. -/
def Level.compareWith (required actual : Level) : Verdict :=
  if !required.accepts actual then .mismatch actual
  else if required.strength < actual.strength then .cast actual
  else .pass

/-- Compares the level of a value with what its position requires. -/
def judge (required : Level) (value : ValueLevel) (site : Site) : Verdict :=
  if required = .inherit then .pass
  else
    match value, site with
    | .null, _ => .pass
    | .unchecked, _ => .unchecked
    | .level .inherit, .declaration => .pass
    | .level .inherit, .strict =>
      required.compareWith (Level.resolveInherit .inherit Level.unresolvedInherit)
    | .level l, _ => required.compareWith l
    | .inherited receiver, _ => required.compareWith (Level.resolveInherit .inherit receiver)

end Closedness
