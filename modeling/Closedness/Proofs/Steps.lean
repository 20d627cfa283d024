import Closedness.Flow.Checker

/-!
# What each step of a walk does

A walk is put together from a handful of steps: reading, assigning and declaring variables, and
judging values. Each of them is described here once, as the value it gives, the environment it
leaves and what it logs. Facts about walks are proved from these descriptions and from the ways in
which walks are put together; nothing else unfolds a step.
-/

namespace Closedness

/-! ## Putting walks together -/

namespace Walk

variable {α β : Type}

@[simp] theorem env_apply (env : Env) :
    Walk.env env = { value := env, env, log := [] } := rfl

@[simp] theorem modify_apply (f : Env → Env) (env : Env) :
    Walk.modify f env = { value := (), env := f env, log := [] } := rfl

@[simp] theorem emit_apply (events : List Event) (env : Env) :
    Walk.emit events env = { value := (), env, log := events } := rfl

@[simp] theorem inScope_apply (body : Walk α) (env : Env) :
    body.inScope env =
      { value := (body env.push).value
        env := (body env.push).env.pop
        log := (body env.push).log } := rfl

@[simp] theorem fork_apply (first : Walk α) (second : Walk β) (env : Env) :
    first.fork second env =
      { value := ((first env).value, (second env).value)
        env := (second env).env.merge (first env).env
        log := (first env).log ++ (second env).log } := rfl

end Walk

/-! ## Annotations and judgements -/

@[simp] theorem resolveVariable_apply (ctx : Context) (id : DeclId) (annots : List Annot)
    (env : Env) :
    resolveVariable ctx id annots env =
      { value := ctx.names.resolve annots
        env
        log := Event.ofConflicts id (ctx.names.resolve annots).conflicts } := by
  simp [resolveVariable]

/-- What judging a value at a position that may have a requirement logs. -/
def positionLog (options : Options) (required : Option Level) (value : ValueLevel) (site : Site)
    (span : Span) : List Event :=
  match required with
  | some required => judgementLog options required value site span
  | none => []

@[simp] theorem checkAgainst_apply (ctx : Context) (required : Option Level) (value : ValueLevel)
    (site : Site) (span : Span) (env : Env) :
    checkAgainst ctx required value site span env =
      { value := (), env, log := positionLog ctx.options required value site span } := by
  cases required <;> rfl

/-! ## Variables -/

@[simp] theorem readVariable_apply (id : DeclId) (env : Env) :
    readVariable id env = { value := (env.level? id).getD .inherit, env, log := [] } := rfl

/-- The environment after a value is given to a variable. -/
def Context.assigned (ctx : Context) (target : DeclId) (level : ValueLevel) (env : Env) : Env :=
  match env.get? target with
  | none => env
  | some state =>
    match state.pinned with
    | some _ => env
    | none => env.assign target (ctx.plainLevel level state.type)

/-- What giving a value to a variable logs. -/
def assignmentLog (options : Options) (target : DeclId) (level : ValueLevel) (span : Span)
    (env : Env) : List Event :=
  match env.get? target with
  | none => []
  | some state =>
    match state.pinned with
    | some pinned =>
      judgementLog options pinned level .declaration span
        ++ redundancyLog options pinned level state.pinnedAt
    | none => []

@[simp] theorem assignVariable_apply (ctx : Context) (target : DeclId) (level : ValueLevel)
    (span : Span) (env : Env) :
    assignVariable ctx target level span env =
      { value := ()
        env := ctx.assigned target level env
        log := assignmentLog ctx.options target level span env } := by
  simp only [assignVariable, Walk.bind_apply, Walk.env_apply, List.nil_append, Context.assigned,
    assignmentLog]
  cases env.get? target with
  | none => rfl
  | some state =>
    cases hpinned : state.pinned with
    | none => simp [hpinned]
    | some pinned => simp [hpinned, checkValue, checkRedundant]

@[simp] theorem declareLocal_apply (ctx : Context) (decl : LocalDecl) (resolution : Resolution)
    (env : Env) :
    declareLocal ctx decl resolution env =
      { value := ()
        env := env.declare decl.id
          (.ofBinding (ctx.model.declaredBinding resolution.binding decl.type) resolution.span
            decl.type)
        log := [] } := rfl

/-- What is known of a local once it is initialised with a value. -/
def Context.initialState (ctx : Context) (decl : LocalDecl) (resolution : Resolution)
    (init : Expr) (value : ValueLevel) (env : Env) : VarState :=
  let type := decl.type.or (init.staticType? ctx env)
  let plain : VarState := .plain (ctx.plainLevel value type) type
  match resolution.binding with
  | some .noInherit => .plain .unchecked type
  | some (.level .inherit) | none => plain
  | some (.level l) =>
    if init.keepsMarker ctx env decl.type then .pin l resolution.span type else plain

/-- What initialising a local logs. -/
def Context.initialLog (ctx : Context) (decl : LocalDecl) (resolution : Resolution) (init : Expr)
    (value : ValueLevel) (env : Env) : List Event :=
  (match resolution.binding.bind Binding.explicit? with
    | some l =>
      judgementLog ctx.options l value .declaration init.span
        ++ redundancyLog ctx.options l value resolution.span
        ++ (if init.keepsMarker ctx env decl.type then []
          else [.noted (.markerDropped decl.name l)])
    | none => [])
    ++ [.noted (.initialised decl.name
      (ctx.initialState decl resolution init value env).level)]

/-- The variable is declared in its initial state, and its first value judged. -/
@[simp] theorem initLocal_apply (ctx : Context) (decl : LocalDecl) (resolution : Resolution)
    (init : Expr) (value : ValueLevel) (env : Env) :
    initLocal ctx decl resolution init value env =
      { value := ()
        env := env.declare decl.id (ctx.initialState decl resolution init value env)
        log := ctx.initialLog decl resolution init value env } := by
  obtain ⟨binding, span, conflicts⟩ := resolution
  -- only an explicit marker is judged, and only there can it be dropped
  have hmarker : ∀ l : Level, l ≠ .inherit →
      initLocal ctx decl ⟨some (.level l), span, conflicts⟩ init value env =
        { value := ()
          env := env.declare decl.id
            (ctx.initialState decl ⟨some (.level l), span, conflicts⟩ init value env)
          log := ctx.initialLog decl ⟨some (.level l), span, conflicts⟩ init value env } := by
    intro l hl
    by_cases hkeep : init.keepsMarker ctx env decl.type = true <;>
      cases l <;>
      simp_all [initLocal, Context.initialState, Context.initialLog, Binding.explicit?, checkValue,
        checkRedundant]
  match binding with
  | none => rfl
  | some .noInherit => rfl
  | some (.level .inherit) => rfl
  | some (.level .bound) => exact hmarker .bound (by decide)
  | some (.level .closed) => exact hmarker .closed (by decide)

/-- What binding a pattern variable to a value logs. -/
def Context.bindingLog (ctx : Context) (var : PatternVar) (incoming : ValueLevel) : List Event :=
  let resolution := ctx.names.resolve var.annots
  Event.ofConflicts var.id resolution.conflicts
    ++ (match resolution.binding.bind Binding.explicit? with
      | some l => redundancyLog ctx.options l incoming resolution.span
      | none => [])
    ++ [.noted (.matched var.name (PatternVar.levelFor resolution.binding incoming) incoming)]

/-- The variable is declared, without pin, at the level that its marker or the value gives. -/
@[simp] theorem bindVariable_apply (ctx : Context) (var : PatternVar) (incoming : ValueLevel)
    (type : Option String) (env : Env) :
    bindVariable ctx var incoming type env =
      { value := ()
        env := env.declare var.id
          (.plain (PatternVar.levelFor (ctx.names.resolve var.annots).binding incoming) type)
        log := ctx.bindingLog var incoming } := by
  simp only [bindVariable, Walk.bind_apply, resolveVariable_apply, Context.bindingLog]
  cases (ctx.names.resolve var.annots).binding.bind Binding.explicit? with
  | none => simp
  | some l => simp [checkRedundant]

end Closedness
