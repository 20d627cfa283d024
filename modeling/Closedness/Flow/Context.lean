import Closedness.Config.Basic
import Closedness.Model
import Closedness.Walk

/-!
# Judging inside a method

The `Context` of a method is what stays the same while its body is walked. The steps here are the
ones that every part of the walk shares: resolving the annotations of a declared variable, judging
a value against a requirement, and noticing an annotation that says nothing new. Findings of the
optional kinds are logged only if the options of the run ask for them.
-/

namespace Closedness

/-- What stays the same while a method body is walked. -/
structure Context where
  model : Model
  names : Names
  /-- The level of the object whose method runs; `none` for static methods. -/
  self : Option ValueLevel := none
  /-- The type of that object. -/
  selfType : Option String := none
  /-- The level that returned values must have. -/
  returns : Option Level := none
  /-- Which of the optional kinds of findings are logged. -/
  options : Options := {}

namespace Context

/-- The level of the object whose method runs. -/
def selfLevel (ctx : Context) : ValueLevel :=
  ctx.self.getD .inherit

/-- The level that a variable without effective annotation takes from a value: where the value says
nothing, the level of the variable's type counts. -/
def plainLevel (ctx : Context) (value : ValueLevel) (type : Option String) : ValueLevel :=
  match value.stored with
  | .level .inherit =>
    match ctx.model.explicitTypeLevel? type with
    | some l => .level l
    | none => .inherit
  | level => level

end Context

/-- Resolves the annotations of a variable and logs their conflicts. -/
def resolveVariable (ctx : Context) (id : DeclId) (annots : List Annot) : Walk Resolution := do
  let resolution := ctx.names.resolve annots
  Walk.emit (Event.ofConflicts id resolution.conflicts)
  return resolution

/-- A finding, if findings of its kind are asked for. -/
def Options.finding (o : Options) (d : Diagnostic) : List Event :=
  if o.admits d.kind then [.found d] else []

/-- The diagnostic of a verdict. -/
def Verdict.diagnostic? (required : Level) (span : Span) : Verdict → Option Diagnostic
  | .pass => none
  | .mismatch actual => some (.levelMismatch span required actual)
  | .cast actual => some (.smartCast span required actual)
  | .unchecked => some (.uncheckedInference span required)

/-- What judging a value logs. -/
def judgementLog (options : Options) (required : Level) (value : ValueLevel) (site : Site)
    (span : Span) : List Event :=
  let verdict := judge required value site
  .noted (.judged span value required site verdict) ::
    (verdict.diagnostic? required span).toList.flatMap options.finding

/-- Judges a value at a position with a requirement. -/
def checkValue (ctx : Context) (required : Level) (value : ValueLevel) (site : Site)
    (span : Span) : Walk Unit :=
  Walk.emit (judgementLog ctx.options required value site span)

/-- Judges a value at a position that may have a requirement. -/
def checkAgainst (ctx : Context) (required : Option Level) (value : ValueLevel) (site : Site)
    (span : Span) : Walk Unit :=
  match required with
  | some required => checkValue ctx required value site span
  | none => pure ()

/-- What an annotation at `span` that asks for the level the value has already logs. -/
def redundancyLog (options : Options) (annotated : Level) (value : ValueLevel)
    (span : Option Span) : List Event :=
  match span with
  | some span =>
    if value.explicit? = some annotated then options.finding (.redundantMarker span annotated)
    else []
  | none => []

/-- Notices an annotation that asks for the level the value has already. -/
def checkRedundant (ctx : Context) (annotated : Level) (value : ValueLevel)
    (span : Option Span) : Walk Unit :=
  Walk.emit (redundancyLog ctx.options annotated value span)

end Closedness
