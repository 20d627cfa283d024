import Closedness.Proofs.Checker
import Closedness.Proofs.RelabeledTables
import Mathlib.Data.List.Forall2

/-!
# Runs over relabelled units

A walk compares ids with each other and looks at no label otherwise. So from relabelled variables a
relabelled body does what the body does, under other labels (`Walk.Mirrors`), as long as different
ids stay different. This goes through every way in which walks are put together; the steps follow
from what they do (`Steps`), expressions and statements by induction (`eval_relabel`,
`exec_relabel`), and all that the run over a unit logs is relabelled (`runLog_relabel`).
-/

namespace Closedness

/-! ## Putting walks together -/

def Outcome.relabel {α β : Type} (r : Relabeling) (f : α → β) (o : Outcome α) : Outcome β :=
  { value := f o.value
    env := o.env.relabel r
    log := o.log.map (Event.relabel r) }

namespace Walk

variable {α β γ δ : Type}

/-- From relabelled variables `w'` does what `w` does, under other labels; `f` relabels the
value. -/
def Mirrors (r : Relabeling) (f : α → β) (w : Walk α) (w' : Walk β) : Prop :=
  ∀ env : Env, w' (env.relabel r) = (w env).relabel r f

namespace Mirrors

variable {r : Relabeling} {f : α → β} {g : γ → δ}

theorem pure {a : α} {b : β} (h : b = f a) :
    Mirrors r f (Pure.pure a : Walk α) (Pure.pure b) := by
  intro env
  rw [pure_apply, pure_apply, h]
  rfl

/-- Walks one after the other mirror each other when each of them does. -/
theorem bind {w : Walk α} {w' : Walk β} {next : α → Walk γ} {next' : β → Walk δ}
    (h : Mirrors r f w w') (hnext : ∀ a, Mirrors r g (next a) (next' (f a))) :
    Mirrors r g (w >>= next) (w' >>= next') := by
  intro env
  rw [bind_apply, bind_apply, h env]
  simp only [Outcome.relabel, hnext _ _, List.map_append]

theorem emit {events events' : List Event} (h : events' = events.map (Event.relabel r)) :
    Mirrors r id (Walk.emit events) (Walk.emit events') := by
  intro env
  rw [h]
  rfl

theorem inScope {w : Walk α} {w' : Walk β} (h : Mirrors r f w w') :
    Mirrors r f w.inScope w'.inScope := by
  intro env
  have hbody : w' (env.relabel r).push = (w env.push).relabel r f := h env.push
  rw [inScope_apply, inScope_apply, hbody]
  simp only [Outcome.relabel, Env.pop_relabel]

variable (hr : Function.Injective r.decl)
include hr

theorem fork {first : Walk α} {first' : Walk β} {second : Walk γ} {second' : Walk δ}
    (h : Mirrors r f first first') (h' : Mirrors r g second second') :
    Mirrors r (Prod.map f g) (first.fork second) (first'.fork second') := by
  intro env
  rw [fork_apply, fork_apply, h env, h' env]
  simp only [Outcome.relabel, Env.merge_relabel hr, List.map_append, Prod.map]

theorem alternatives (exhaustive : Bool) {arms arms' : List (Walk (Option ValueLevel))}
    (h : List.Forall₂ (Mirrors r id) arms arms') :
    Mirrors r id (Walk.alternatives exhaustive arms) (Walk.alternatives exhaustive arms') := by
  intro env
  have houtcomes : (arms'.map fun arm => arm (env.relabel r))
      = (arms.map fun arm => arm env).map (Outcome.relabel r id) := by
    induction h with
    | nil => rfl
    | cons harm _ ih => rw [List.map_cons, List.map_cons, List.map_cons, harm env, ih]
  have hjoin : ∀ outcomes : List Env,
      joinAll exhaustive (env.relabel r) (outcomes.map (Env.relabel r))
        = (joinAll exhaustive env outcomes).relabel r := by
    intro outcomes
    cases exhaustive with
    | false => exact Env.foldl_merge_relabel hr env outcomes
    | true =>
      cases outcomes with
      | nil => rfl
      | cons first rest => exact Env.foldl_merge_relabel hr first rest
  simp only [Walk.alternatives, houtcomes, List.map_map, Outcome.relabel, List.flatMap_map,
    List.map_flatMap, ← hjoin]
  rfl

end Mirrors

end Walk

/-! ## Steps -/

/-- The context of a relabelled method. -/
def Context.relabel (r : Relabeling) (ctx : Context) : Context :=
  { ctx with model := ctx.model.relabel r }

section Steps

variable {r : Relabeling} (ctx : Context)

theorem resolveVariable_relabel (id : DeclId) (annots : List Annot) :
    Walk.Mirrors r (Resolution.relabel r) (resolveVariable ctx id annots)
      (resolveVariable (ctx.relabel r) (r.decl id) (annots.map (Annot.relabel r))) := by
  intro env
  rw [resolveVariable_apply, resolveVariable_apply]
  simp only [Context.relabel, Names.resolve_relabel, Outcome.relabel,
    ← Event.ofConflicts_relabel]
  rfl

theorem checkAgainst_relabel (required : Option Level) (value : ValueLevel) (site : Site)
    (span : Span) :
    Walk.Mirrors r id (checkAgainst ctx required value site span)
      (checkAgainst (ctx.relabel r) required value site (r.span span)) := by
  intro env
  rw [checkAgainst_apply, checkAgainst_apply, positionLog_relabel]
  rfl

variable (hr : Function.Injective r.decl)
include hr

theorem Context.plainLevel_relabel : (ctx.relabel r).plainLevel = ctx.plainLevel := by
  funext value type
  simp only [plainLevel, relabel, Model.explicitTypeLevel?_relabel hr]

theorem readVariable_relabel (id : DeclId) :
    Walk.Mirrors r (fun level => level) (readVariable id) (readVariable (r.decl id)) := by
  intro env
  rw [readVariable_apply, readVariable_apply, Env.level?_relabel hr]
  rfl

/-- An assignment goes to the relabelled variable. -/
theorem assignVariable_relabel (target : DeclId) (level : ValueLevel) (span : Span) :
    Walk.Mirrors r id (assignVariable ctx target level span)
      (assignVariable (ctx.relabel r) (r.decl target) level (r.span span)) := by
  intro env
  rw [assignVariable_apply, assignVariable_apply]
  simp only [Context.assigned, assignmentLog, Env.get?_relabel hr,
    Context.plainLevel_relabel ctx hr]
  cases env.get? target with
  | none => rfl
  | some state =>
    cases hpinned : state.pinned with
    | none =>
      simp only [Option.map_some, VarState.relabel, hpinned, Env.assign_relabel hr]
      rfl
    | some pinned =>
      simp only [Option.map_some, VarState.relabel, hpinned, judgementLog_relabel,
        redundancyLog_relabel, ← List.map_append]
      rfl

theorem declareLocal_relabel (decl : LocalDecl) (resolution : Resolution) :
    Walk.Mirrors r id (declareLocal ctx decl resolution)
      (declareLocal (ctx.relabel r) (decl.relabel r) (resolution.relabel r)) := by
  intro env
  rw [declareLocal_apply, declareLocal_apply]
  simp only [Context.relabel, LocalDecl.relabel, Resolution.relabel,
    Model.declaredBinding_relabel hr, VarState.ofBinding_relabel, Env.declare_relabel hr]
  rfl

/-- A relabelled expression has the same static type. -/
theorem Expr.staticType?_relabel (env : Env) : ∀ e : Expr,
    (e.relabel r).staticType? (ctx.relabel r) (env.relabel r) = e.staticType? ctx env
  | .null _ | .literal _ _ | .self _ | .instanceOf _ _ _ | .switch _ _ _ | .other _ _ _ => by
    simp only [relabel, staticType?, Context.relabel]
  | .var decl _ => by
    simp only [relabel, staticType?, Env.get?_relabel hr]
    cases env.get? decl <;> rfl
  | .field _ component _ => by
    simp only [relabel, staticType?, Context.relabel, Model.componentType?_relabel hr]
  | .call _ method _ _ => by
    simp only [relabel, staticType?, Context.relabel, Model.componentType?_relabel hr,
      Model.returnType?_relabel hr]
  | .construct variant _ _ | .singleton variant _ => by
    simp only [relabel, staticType?, Context.relabel, Model.typeName?_relabel hr]
  | .paren inner _ => by simp only [relabel, staticType?, staticType?_relabel env inner]
  | .conditional _ thenExpr _ _ => by
    simp only [relabel, staticType?, staticType?_relabel env thenExpr]
  | .assign _ value _ => by simp only [relabel, staticType?, staticType?_relabel env value]

omit hr in
theorem Expr.span_relabel (e : Expr) : (e.relabel r).span = r.span e.span := by
  cases e <;> simp only [relabel, Expr.span]

omit hr in
theorem Expr.isNullLiteral_relabel : ∀ e : Expr, (e.relabel r).isNullLiteral = e.isNullLiteral
  | .paren inner _ => isNullLiteral_relabel inner
  | .null _ | .literal _ _ | .var _ _ | .self _ | .field _ _ _ | .call _ _ _ _ | .construct _ _ _
  | .singleton _ _ | .instanceOf _ _ _ | .conditional _ _ _ _ | .switch _ _ _ | .assign _ _ _
  | .other _ _ _ => rfl

theorem Expr.keepsMarker_relabel (env : Env) (declared : Option String) (init : Expr) :
    (init.relabel r).keepsMarker (ctx.relabel r) (env.relabel r) declared
      = init.keepsMarker ctx env declared := by
  unfold keepsMarker
  rw [isNullLiteral_relabel, staticType?_relabel ctx hr]

/-- A local variable starts in the relabelled state. -/
theorem Context.initialState_relabel (decl : LocalDecl) (resolution : Resolution) (init : Expr)
    (value : ValueLevel) (env : Env) :
    (ctx.relabel r).initialState (decl.relabel r) (resolution.relabel r) (init.relabel r) value
        (env.relabel r)
      = (ctx.initialState decl resolution init value env).relabel r := by
  simp only [initialState, LocalDecl.relabel, Resolution.relabel, Expr.staticType?_relabel ctx hr,
    Expr.keepsMarker_relabel ctx hr, plainLevel_relabel ctx hr]
  obtain _ | (level | _) := resolution.binding
  · rfl
  · cases level
    case inherit => rfl
    all_goals
      simp only
      split <;> rfl
  · rfl

theorem initLocal_relabel (decl : LocalDecl) (resolution : Resolution) (init : Expr)
    (value : ValueLevel) :
    Walk.Mirrors r id (initLocal ctx decl resolution init value)
      (initLocal (ctx.relabel r) (decl.relabel r) (resolution.relabel r) (init.relabel r)
        value) := by
  intro env
  have hlog : (ctx.relabel r).initialLog (decl.relabel r) (resolution.relabel r) (init.relabel r)
        value (env.relabel r)
      = (ctx.initialLog decl resolution init value env).map (Event.relabel r) := by
    unfold Context.initialLog
    rw [Context.initialState_relabel ctx hr, List.map_append]
    congr 1
    have hbinding : (resolution.relabel r).binding = resolution.binding := rfl
    have htype : (decl.relabel r).type = decl.type := rfl
    have hspan : (resolution.relabel r).span = resolution.span.map r.span := rfl
    have hoptions : (ctx.relabel r).options = ctx.options := rfl
    rw [hbinding, htype, hspan, hoptions]
    cases resolution.binding.bind Binding.explicit? with
    | none => rfl
    | some l =>
      simp only [Expr.keepsMarker_relabel ctx hr, Expr.span_relabel, judgementLog_relabel,
        redundancyLog_relabel, List.map_append]
      congr 1
      split <;> rfl
  rw [initLocal_apply, initLocal_apply, Context.initialState_relabel ctx hr, hlog]
  simp only [LocalDecl.relabel, Env.declare_relabel hr]
  rfl

/-- Binding a variable declares the relabelled one. -/
theorem bindVariable_relabel (var : PatternVar) (incoming : ValueLevel) (type : Option String) :
    Walk.Mirrors r id (bindVariable ctx var incoming type)
      (bindVariable (ctx.relabel r) (var.relabel r) incoming type) := by
  intro env
  have hresolve : (ctx.relabel r).names.resolve (var.relabel r).annots
      = (ctx.names.resolve var.annots).relabel r := Names.resolve_relabel r ctx.names var.annots
  have hlog : (ctx.relabel r).bindingLog (var.relabel r) incoming
      = (ctx.bindingLog var incoming).map (Event.relabel r) := by
    unfold Context.bindingLog
    simp only [hresolve, List.map_append]
    congr 1
    · rw [← Event.ofConflicts_relabel]
      congr 1
      simp only [Resolution.relabel]
      cases (ctx.names.resolve var.annots).binding.bind Binding.explicit? with
      | none => rfl
      | some l => exact redundancyLog_relabel r ctx.options l incoming _
  rw [bindVariable_apply, bindVariable_apply, hlog, hresolve]
  have hstate := Env.declare_relabel hr env var.id
    (.plain (PatternVar.levelFor (ctx.names.resolve var.annots).binding incoming) type)
  simp only [Outcome.relabel, ← hstate]
  rfl

end Steps

/-! ## Bodies -/

section Bodies

def Construction.relabel (r : Relabeling) (b : Construction) : Construction :=
  { b with variant := r.decl b.variant }

def Evaluated.relabel (r : Relabeling) (e : Evaluated) : Evaluated :=
  { e with built := e.built.map (Construction.relabel r) }

theorem Arm.any_isDefault_relabel (r : Relabeling) (arms : List Arm) :
    (Arm.relabelList r arms).any isDefault = arms.any isDefault := by
  induction arms with
  | nil => rfl
  | cons arm rest ih =>
    obtain ⟨label, body, span⟩ := arm
    rw [Arm.relabelList, List.any_cons, List.any_cons, ih]
    cases label <;> rfl

variable {r : Relabeling} (hr : Function.Injective r.decl) {ctx : Context}
include hr

theorem Model.matchedLevel_relabel (model : Model) (variant : DeclId) (narrowed : ValueLevel)
    (built : Option Construction) :
    (model.relabel r).matchedLevel (r.decl variant) narrowed (built.map (Construction.relabel r))
      = model.matchedLevel variant narrowed built := by
  funext index
  have hargs :
      ((built.map (Construction.relabel r)).filter fun b => b.variant = r.decl variant).bind
        (fun b => b.args[index]?)
      = (built.filter fun b => b.variant = variant).bind fun b => b.args[index]? := by
    cases built with
    | none => rfl
    | some b =>
      simp only [Option.map_some, Option.filter_some, Construction.relabel, hr.eq_iff]
      split <;> rfl
  simp only [matchedLevel, componentBindings_relabel hr, List.getElem?_map, Option.map_map, hargs]
  rfl

-- the linter does not look into the other theorems of a mutual block
set_option linter.unusedSectionVars false in
mutual

/-- Matching mirrors matching under other labels. -/
theorem bindPattern_relabel : ∀ (p : Pattern) (incoming : ValueLevel)
    (built : Option Construction),
    Walk.Mirrors r id (bindPattern ctx incoming built p)
      (bindPattern (ctx.relabel r) incoming (built.map (Construction.relabel r)) (p.relabel r))
  | .typeTest variant none span, incoming, built => by
    rw [Pattern.relabel, Option.map_none, bindPattern, bindPattern]
    simp only [Context.relabel, Model.variantLevel_relabel hr]
    exact (Walk.Mirrors.emit (narrowingLog_relabel r ..)).bind fun _ => .pure rfl
  | .typeTest variant (some var) span, incoming, built => by
    rw [Pattern.relabel, Option.map_some, bindPattern, bindPattern]
    have hmodel : (ctx.relabel r).model = ctx.model.relabel r := rfl
    simp only [hmodel, Model.variantLevel_relabel hr, Model.typeName?_relabel hr]
    exact (Walk.Mirrors.emit (narrowingLog_relabel r ..)).bind fun _ =>
      bindVariable_relabel ctx hr var _ _
  | .variable var span, incoming, built => by
    rw [Pattern.relabel, bindPattern, bindPattern]
    exact bindVariable_relabel ctx hr var incoming none
  | .record variant components span, incoming, built => by
    rw [Pattern.relabel, bindPattern, bindPattern]
    have hmodel : (ctx.relabel r).model = ctx.model.relabel r := rfl
    simp only [hmodel, Model.variantLevel_relabel hr, Model.matchedLevel_relabel hr]
    exact (Walk.Mirrors.emit (narrowingLog_relabel r ..)).bind fun _ =>
      bindComponents_relabel components _ 0
  | .wildcard span, incoming, built => by
    rw [Pattern.relabel, bindPattern, bindPattern]
    exact .pure rfl

theorem bindComponents_relabel : ∀ (ps : List Pattern) (level : Nat → ValueLevel) (index : Nat),
    Walk.Mirrors r id (bindComponents ctx level index ps)
      (bindComponents (ctx.relabel r) level index (Pattern.relabelList r ps))
  | [], level, index => by
    rw [Pattern.relabelList, bindComponents, bindComponents]
    exact .pure rfl
  | p :: rest, level, index => by
    rw [Pattern.relabelList, bindComponents, bindComponents]
    exact (bindPattern_relabel p (level index) none).bind fun _ =>
      bindComponents_relabel rest level (index + 1)

end

set_option linter.unusedSectionVars false in
mutual

/-- **Evaluating mirrors evaluating under other labels.** -/
theorem eval_relabel : ∀ e : Expr,
    Walk.Mirrors r (Evaluated.relabel r) (eval ctx e) (eval (ctx.relabel r) (e.relabel r))
  | .null _ | .literal _ _ | .self _ => by
    rw [Expr.relabel, eval, eval]
    exact .pure rfl
  | .var decl _ => by
    rw [Expr.relabel, eval, eval]
    exact (readVariable_relabel hr decl).bind fun _ => .pure rfl
  | .field receiver component _ => by
    rw [Expr.relabel, eval, eval]
    refine (evalOption_relabel receiver).bind fun receiver => .pure ?_
    simp only [Context.relabel, Model.accessLevel_relabel hr]
    rfl
  | .call receiver method args _ => by
    have hmodel : (ctx.relabel r).model = ctx.model.relabel r := rfl
    rw [Expr.relabel, eval, eval, hmodel, Model.argRequirement?_relabel hr]
    refine (evalOption_relabel receiver).bind fun receiver =>
      (evalArgs_relabel args _ 0).bind fun _ => .pure ?_
    simp only [Model.callResult_relabel hr]
    rfl
  | .construct variant args _ => by
    have hmodel : (ctx.relabel r).model = ctx.model.relabel r := rfl
    rw [Expr.relabel, eval, eval, hmodel, Model.componentRequirement?_relabel hr,
      Model.constructionLevel_relabel hr]
    exact (evalArgs_relabel args _ 0).bind fun _ => .pure rfl
  | .singleton variant _ => by
    have hmodel : (ctx.relabel r).model = ctx.model.relabel r := rfl
    rw [Expr.relabel, eval, eval, hmodel, Model.constructionLevel_relabel hr]
    exact .pure rfl
  | .paren inner _ => by
    rw [Expr.relabel, eval, eval]
    exact eval_relabel inner
  | .instanceOf operand pattern _ => by
    rw [Expr.relabel, eval, eval]
    exact (eval_relabel operand).bind fun operand =>
      (bindPattern_relabel hr pattern operand.level operand.built).bind fun _ => .pure rfl
  | .conditional condition thenExpr elseExpr _ => by
    rw [Expr.relabel, eval, eval]
    exact (eval_relabel condition).bind fun _ =>
      ((eval_relabel thenExpr).fork hr (eval_relabel elseExpr)).bind fun _ => .pure rfl
  | .switch scrutinee arms _ => by
    rw [Expr.relabel, eval, eval, Arm.any_isDefault_relabel]
    exact (eval_relabel scrutinee).bind fun scrutinee =>
      (Walk.Mirrors.alternatives hr _ (runArms_relabel arms scrutinee)).bind fun _ => .pure rfl
  | .assign target value _ => by
    rw [Expr.relabel, eval, eval, Expr.span_relabel]
    exact (eval_relabel value).bind fun value =>
      (assignVariable_relabel ctx hr target value.level _).bind fun _ => .pure rfl
  | .other _ children _ => by
    rw [Expr.relabel, eval, eval]
    exact (evalArgs_relabel children _ 0).bind fun _ => .pure rfl

theorem evalOption_relabel : ∀ e : Option Expr,
    Walk.Mirrors r id (evalOption ctx e) (evalOption (ctx.relabel r) (Expr.relabelOption r e))
  | none => by
    rw [Expr.relabelOption, evalOption, evalOption]
    exact .pure rfl
  | some e => by
    rw [Expr.relabelOption, evalOption, evalOption]
    exact (eval_relabel e).bind fun _ => .pure rfl

theorem evalArgs_relabel : ∀ (es : List Expr) (required : Nat → Option Level) (index : Nat),
    Walk.Mirrors r id (evalArgs ctx required index es)
      (evalArgs (ctx.relabel r) required index (Expr.relabelList r es))
  | [], required, index => by
    rw [Expr.relabelList, evalArgs, evalArgs]
    exact .pure rfl
  | e :: rest, required, index => by
    rw [Expr.relabelList, evalArgs, evalArgs, Expr.span_relabel]
    exact (eval_relabel e).bind fun value =>
      (checkAgainst_relabel ctx (required index) value.level .strict _).bind fun _ =>
        (evalArgs_relabel rest required (index + 1)).bind fun _ => .pure rfl

theorem runArms_relabel : ∀ (arms : List Arm) (scrutinee : Evaluated),
    List.Forall₂ (Walk.Mirrors r id) (runArms ctx scrutinee arms)
      (runArms (ctx.relabel r) (scrutinee.relabel r) (Arm.relabelList r arms))
  | [], scrutinee => by
    rw [Arm.relabelList, runArms, runArms]
    exact .nil
  | .mk label body _ :: rest, scrutinee => by
    rw [Arm.relabelList, runArms, runArms]
    refine .cons (Walk.Mirrors.inScope ?_) (runArms_relabel rest scrutinee)
    exact (bindLabel_relabel label scrutinee).bind fun _ => runBody_relabel body

theorem bindLabel_relabel : ∀ (label : Label) (scrutinee : Evaluated),
    Walk.Mirrors r id (bindLabel ctx scrutinee label)
      (bindLabel (ctx.relabel r) (scrutinee.relabel r) (label.relabel r))
  | .pattern pattern, scrutinee => by
    rw [Label.relabel, bindLabel, bindLabel]
    exact bindPattern_relabel hr pattern scrutinee.level scrutinee.built
  | .constant expr, scrutinee => by
    rw [Label.relabel, bindLabel, bindLabel]
    exact (eval_relabel expr).bind fun _ => .pure rfl
  | .default, scrutinee => by
    rw [Label.relabel, bindLabel, bindLabel]
    exact .pure rfl

theorem runBody_relabel : ∀ body : ArmBody,
    Walk.Mirrors r id (runBody ctx body) (runBody (ctx.relabel r) (body.relabel r))
  | .expr expr => by
    rw [ArmBody.relabel, runBody, runBody]
    exact (eval_relabel expr).bind fun _ => .pure rfl
  | .block block => by
    rw [ArmBody.relabel, runBody, runBody]
    exact (execBlock_relabel block).bind fun _ => .pure rfl

/-- **Executing mirrors executing under other labels.** -/
theorem exec_relabel : ∀ s : Stmt,
    Walk.Mirrors r id (exec ctx s) (exec (ctx.relabel r) (s.relabel r))
  | .declare decl none _ => by
    rw [Stmt.relabel, Expr.relabelOption, exec, exec]
    exact (resolveVariable_relabel ctx decl.id decl.annots).bind fun resolution =>
      declareLocal_relabel ctx hr decl resolution
  | .declare decl (some init) _ => by
    rw [Stmt.relabel, Expr.relabelOption, exec, exec]
    exact (resolveVariable_relabel ctx decl.id decl.annots).bind fun resolution =>
      (eval_relabel init).bind fun value =>
        initLocal_relabel ctx hr decl resolution init value.level
  | .expr expr _ => by
    rw [Stmt.relabel, exec, exec]
    exact (eval_relabel expr).bind fun _ => .pure rfl
  | .ifElse condition thenBranch elseBranch _ => by
    rw [Stmt.relabel, exec, exec]
    refine .inScope ((eval_relabel condition).bind fun _ => ?_)
    exact ((execBlock_relabel thenBranch).fork hr (execOption_relabel elseBranch)).bind fun _ =>
      .pure rfl
  | .loop condition body _ => by
    rw [Stmt.relabel, exec, exec]
    refine .inScope ((eval_relabel condition).bind fun _ => ?_)
    have hskip : Walk.Mirrors r id (pure () : Walk Unit) (pure ()) := .pure rfl
    exact ((execBlock_relabel body).fork hr hskip).bind fun _ => .pure rfl
  | .switch scrutinee arms _ => by
    rw [Stmt.relabel, exec, exec, Arm.any_isDefault_relabel]
    exact (eval_relabel scrutinee).bind fun scrutinee =>
      (Walk.Mirrors.alternatives hr _ (runArms_relabel arms scrutinee)).bind fun _ => .pure rfl
  | .ret none _ => by
    rw [Stmt.relabel, Expr.relabelOption, exec, exec]
    exact .pure rfl
  | .ret (some value) _ => by
    rw [Stmt.relabel, Expr.relabelOption, exec, exec, Expr.span_relabel]
    exact (eval_relabel value).bind fun value =>
      checkAgainst_relabel ctx ctx.returns value.level .strict _
  | .block block _ => by
    rw [Stmt.relabel, exec, exec]
    exact execBlock_relabel block

theorem execAll_relabel : ∀ stmts : List Stmt,
    Walk.Mirrors r id (execAll ctx stmts) (execAll (ctx.relabel r) (Stmt.relabelList r stmts))
  | [] => by
    rw [Stmt.relabelList, execAll, execAll]
    exact .pure rfl
  | s :: rest => by
    rw [Stmt.relabelList, execAll, execAll]
    exact (exec_relabel s).bind fun _ => execAll_relabel rest

theorem execBlock_relabel : ∀ block : Block,
    Walk.Mirrors r id (execBlock ctx block) (execBlock (ctx.relabel r) (block.relabel r))
  | .mk stmts _ => by
    rw [Block.relabel, execBlock, execBlock]
    exact (execAll_relabel stmts).inScope

theorem execOption_relabel : ∀ block : Option Block,
    Walk.Mirrors r id (execOption ctx block)
      (execOption (ctx.relabel r) (Block.relabelOption r block))
  | none => by
    rw [Block.relabelOption, execOption, execOption]
    exact .pure rfl
  | some block => by
    rw [Block.relabelOption, execOption, execOption]
    exact execBlock_relabel block

end

end Bodies

/-! ## Units -/

section Units

variable {r : Relabeling} (hr : Function.Injective r.decl) (names : Names)
include hr

/-- A relabelled method runs in the relabelled context. -/
theorem Context.ofMethod_relabel (model : Model) (m : Method) :
    ofMethod names (model.relabel r) (m.relabel r) = (ofMethod names model m).relabel r := by
  have hentry : (model.relabel r).method? (m.relabel r).id
      = (model.method? m.id).map (MethodEntry.relabel r) := Model.method?_relabel hr model m.id
  have howner : (((model.method? m.id).map (MethodEntry.relabel r)).bind MethodEntry.owner).bind
        (model.relabel r).type?
      = (((model.method? m.id).bind MethodEntry.owner).bind model.type?).map
        (TypeEntry.relabel r) := by
    cases model.method? m.id with
    | none => rfl
    | some e =>
      show (e.owner.map r.decl).bind (model.relabel r).type? = (e.owner.bind model.type?).map _
      cases e.owner with
      | none => rfl
      | some owner => exact Model.type?_relabel hr model owner
  have hstatic : (m.relabel r).isStatic = m.isStatic := rfl
  simp only [ofMethod, hentry, howner, hstatic]
  cases m.isStatic <;> cases model.method? m.id <;>
    simp only [relabel, Option.map_map, Option.bind_some, Option.bind_none, Option.map_some,
      Option.map_none, if_true, if_false, Bool.false_eq_true] <;> rfl

theorem Env.ofParams_relabel (model : Model) (params : List Param) :
    ofParams (model.relabel r) (params.map (Param.relabel r)) =
      (ofParams model params).relabel r := by
  have hstep : ∀ (env : Env) (p : Param),
      (env.relabel r).declare (p.relabel r).id
          (.ofBinding ((model.relabel r).paramBinding (p.relabel r).id) none
            (some (p.relabel r).type))
        = (env.declare p.id
            (.ofBinding (model.paramBinding p.id) none (some p.type))).relabel r := by
    intro env p
    have hbinding : (model.relabel r).paramBinding (p.relabel r).id = model.paramBinding p.id :=
      Model.paramBinding_relabel hr model p.id
    rw [hbinding, ← declare_relabel hr, ← VarState.ofBinding_relabel]
    rfl
  have hfold : ∀ env : Env,
      (params.map (Param.relabel r)).foldl (fun env p => env.declare p.id
          (.ofBinding ((model.relabel r).paramBinding p.id) none (some p.type))) (env.relabel r)
        = (params.foldl (fun env p => env.declare p.id
          (.ofBinding (model.paramBinding p.id) none (some p.type))) env).relabel r := by
    intro env
    rw [List.foldl_map]
    exact List.foldl_hom (relabel r) hstep
  exact hfold {}

/-- Checking a relabelled method logs the relabelled events. -/
theorem Checker.checkMethod_relabel (model : Model) (options : Options) (m : Method) :
    (Checker.checkMethod names (model.relabel r) { options } (m.relabel r)).2
      = (Checker.checkMethod names model { options } m).2.map (Event.relabel r) := by
  rw [Checker.checkMethod_eq, Checker.checkMethod_eq, Context.ofMethod_relabel hr]
  have hbody : (m.relabel r).body = Block.relabelOption r m.body := rfl
  rw [hbody]
  cases m.body with
  | none => rfl
  | some body =>
    obtain ⟨stmts, span⟩ := body
    have hparams : Env.ofParams (model.relabel r) (m.relabel r).params
        = (Env.ofParams model m.params).relabel r := Env.ofParams_relabel hr model m.params
    let ctx : Context := { Context.ofMethod names model m with options }
    have hexec : execAll (ctx.relabel r) (Stmt.relabelList r stmts)
          ((Env.ofParams model m.params).relabel r)
        = (execAll ctx stmts (Env.ofParams model m.params)).relabel r id :=
      execAll_relabel hr stmts _
    simp only [Block.relabelOption, Block.relabel, Block.stmts, hparams, List.map_cons]
    exact congrArg _ (congrArg Outcome.log hexec)

/-- **The run over a relabelled unit logs what the run over the unit does, relabelled.** -/
theorem runLog_relabel (config : Config) (u : CompilationUnit) :
    runLog config (u.relabel r) = (runLog config u).map (Event.relabel r) := by
  simp only [runLog_eq, Model.log_relabel config.names hr, Model.ofUnit_relabel config.names hr,
    CompilationUnit.allMethods_relabel, List.flatMap_map, List.map_append, List.map_flatMap,
    Checker.checkMethod_relabel hr]

end Units

end Closedness
