import Closedness.Flow.Context

/-!
# Matching patterns

Levels flow from a matched value into the variables of a pattern. A test for a variant with a level
of its own takes that level, even for a weaker value (the arm narrows, which is reported); a
component takes the level it is annotated with, or inherits from the matched value; and an
annotation on the variable overrides both. When the matched value is constructed on the spot, an
inheriting component takes the level of the argument instead.
-/

namespace Closedness

/-- A value constructed on the spot: its variant and the levels of the arguments. -/
structure Construction where
  variant : DeclId
  args : List ValueLevel

/-- The level that a value counts as when it is compared with the level of a variant. -/
def ValueLevel.resolved? : ValueLevel → Option Level
  | .level .inherit => some Level.unresolvedInherit
  | .level l => some l
  | .inherited receiver => some receiver
  | .null | .unchecked => none

/-- The level of a value once it has matched a variant of level `declared`. -/
def ValueLevel.narrow (declared : Level) (incoming : ValueLevel) : ValueLevel :=
  if declared.isExplicit then .level declared else incoming

/-- What matching a value with a variant of level `declared` logs. -/
def narrowingLog (options : Options) (declared : Level) (incoming : ValueLevel) (span : Span) :
    List Event :=
  if declared.isExplicit then
    match incoming.resolved? with
    | some actual =>
      if actual.strength < declared.strength then
        options.finding (.caseArmNarrowing span declared actual)
      else []
    | none => []
  else []

/-- The level that matching a variant gives to its component at `index`. -/
def Model.matchedLevel (model : Model) (variant : DeclId) (narrowed : ValueLevel)
    (built : Option Construction) (index : Nat) : ValueLevel :=
  match (model.componentBindings variant)[index]?.map Prod.snd with
  | some .noInherit => .unchecked
  | some (.level .bound) => .level .bound
  | some (.level .closed) => .level .closed
  | _ =>
    match (built.filter fun b => b.variant = variant).bind fun b => b.args[index]? with
    | some arg => arg
    | none => narrowed.inheritedFrom

/-- The level of a pattern variable, given what its annotations ask for. -/
def PatternVar.levelFor (binding : Option Binding) (incoming : ValueLevel) : ValueLevel :=
  match binding with
  | some .noInherit => .unchecked
  | some (.level .inherit) | none => incoming.matched
  | some (.level l) => .level l

/-- Binds a pattern variable to a value. -/
def bindVariable (ctx : Context) (var : PatternVar) (incoming : ValueLevel)
    (type : Option String) : Walk Unit := do
  let resolution ← resolveVariable ctx var.id var.annots
  match resolution.binding.bind Binding.explicit? with
  | some l => checkRedundant ctx l incoming resolution.span
  | none => pure ()
  let level := PatternVar.levelFor resolution.binding incoming
  Walk.emit [.noted (.matched var.name level incoming)]
  Walk.modify fun env => env.declare var.id (.plain level type)

mutual

/-- Binds the variables of a pattern to a value, and to its arguments when it is constructed on
the spot. -/
def bindPattern (ctx : Context) (incoming : ValueLevel) (built : Option Construction) :
    Pattern → Walk Unit
  | .typeTest variant var span => do
    let declared := ctx.model.variantLevel variant
    Walk.emit (narrowingLog ctx.options declared incoming span)
    match var with
    | some var => bindVariable ctx var (incoming.narrow declared) (ctx.model.typeName? variant)
    | none => pure ()
  | .variable var _ => bindVariable ctx var incoming none
  | .record variant components span => do
    let declared := ctx.model.variantLevel variant
    Walk.emit (narrowingLog ctx.options declared incoming span)
    bindComponents ctx (ctx.model.matchedLevel variant (incoming.narrow declared) built) 0
      components
  | .wildcard _ => pure ()

/-- Binds the patterns of a record's components, from position `index` on. -/
def bindComponents (ctx : Context) (level : Nat → ValueLevel) (index : Nat) :
    List Pattern → Walk Unit
  | [] => pure ()
  | p :: rest => do
    bindPattern ctx (level index) none p
    bindComponents ctx level (index + 1) rest

end

end Closedness
