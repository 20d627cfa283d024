import Closedness.Env
import Closedness.Event

/-!
# Walks

A `Walk α` is a piece of the analysis of a method body: from an environment it gives a value of
type `α`, the environment it leaves, and what it logs. Walks are composed in sequence (`Walk.bind`),
inside a scope (`Walk.inScope`), as two paths that join (`Walk.fork`) and as the alternatives of a
switch (`Walk.alternatives`). Paths that join all start from the same environment, so what one of
them logs does not depend on the others.
-/

namespace Closedness

/-- What a walk gives: a value, the environment it leaves, and what it logs. -/
structure Outcome (α : Type) where
  value : α
  env : Env
  log : List Event

/-- A piece of the analysis of a method body. -/
def Walk (α : Type) : Type :=
  Env → Outcome α

namespace Walk

variable {α β : Type}

/-- Gives a value and changes nothing. -/
def pure (value : α) : Walk α := fun env =>
  { value, env, log := [] }

/-- One walk after another. -/
def bind (first : Walk α) (next : α → Walk β) : Walk β := fun env =>
  let a := first env
  let b := next a.value a.env
  { value := b.value, env := b.env, log := a.log ++ b.log }

instance : Monad Walk where
  pure := pure
  bind := bind

@[simp] theorem pure_apply (value : α) (env : Env) :
    (Pure.pure value : Walk α) env = { value, env, log := [] } := rfl

/-- The second walk starts where the first one ends, and logs after it. -/
@[simp] theorem bind_apply (first : Walk α) (next : α → Walk β) (env : Env) :
    (first >>= next) env =
      { value := (next (first env).value (first env).env).value
        env := (next (first env).value (first env).env).env
        log := (first env).log ++ (next (first env).value (first env).env).log } := rfl

/-- The environment at this point. -/
def env : Walk Env := fun env =>
  { value := env, env, log := [] }

def modify (f : Env → Env) : Walk Unit := fun env =>
  { value := (), env := f env, log := [] }

def emit (events : List Event) : Walk Unit := fun env =>
  { value := (), env, log := events }

/-- Runs inside a scope of its own. -/
def inScope (body : Walk α) : Walk α := fun env =>
  let outcome := body env.push
  { outcome with env := outcome.env.pop }

/-- Runs two paths from here, and goes on with the second, joined by the first. -/
def fork (first : Walk α) (second : Walk β) : Walk (α × β) := fun env =>
  let a := first env
  let b := second env
  { value := (a.value, b.value), env := b.env.merge a.env, log := a.log ++ b.log }

/-- The meet of the levels that are there, if any is. -/
def meetAll (levels : List (Option ValueLevel)) : Option ValueLevel :=
  match levels.filterMap id with
  | [] => none
  | first :: rest => some (rest.foldl ValueLevel.meet first)

/-- Where the arms of a switch lead: to the join of their outcomes, and of the environment before
them if no arm is bound to be taken. -/
def joinAll (exhaustive : Bool) (before : Env) (outcomes : List Env) : Env :=
  match exhaustive, outcomes with
  | true, first :: rest => rest.foldl Env.merge first
  | _, outcomes => outcomes.foldl Env.merge before

/-- Runs the arms of a switch, each from here, and joins them. The value is the meet of the values
of those arms that have one. -/
def alternatives (exhaustive : Bool) (arms : List (Walk (Option ValueLevel))) :
    Walk (Option ValueLevel) := fun env =>
  let outcomes := arms.map fun arm => arm env
  { value := meetAll (outcomes.map Outcome.value)
    env := joinAll exhaustive env (outcomes.map Outcome.env)
    log := outcomes.flatMap Outcome.log }

end Walk

end Closedness
