import Closedness.Proofs.Checker
import Closedness.Proofs.Steps

/-!
# What the options of a run select

The walk looks at the options only where it logs a finding of an optional kind, so a walk under
some options is the walk under all of them with the findings left out that are not asked for
(`Walk.select`): values, environments and the rest of the log are the same. Selecting goes through
every way in which walks are put together, so it is enough to look at the steps that log
(`judgementLog_select`, `redundancyLog_select`, `narrowingLog_select`); expressions and statements
follow by induction (`eval_select`, `exec_select`), and the run over a unit from there
(`runLog_eq_filter`).
-/

namespace Closedness

/-! ## Walks -/

/-- The outcome with only those findings that the options ask for. -/
def Outcome.select {α : Type} (o : Options) (outcome : Outcome α) : Outcome α :=
  { outcome with log := outcome.log.filter o.keeps }

namespace Walk

variable {α β : Type} (o : Options)

/-- The walk that logs only those findings that the options ask for. -/
def select (w : Walk α) : Walk α := fun env =>
  (w env).select o

theorem select_pure (a : α) : (Pure.pure a : Walk α).select o = Pure.pure a := rfl

theorem select_emit (events : List Event) :
    (Walk.emit events).select o = Walk.emit (events.filter o.keeps) := rfl

/-- Selecting commutes with walking on. -/
theorem select_bind (first : Walk α) (next : α → Walk β) :
    (first >>= next).select o = first.select o >>= fun a => (next a).select o := by
  funext env
  simp only [select, Outcome.select, bind_apply, List.filter_append]

theorem select_inScope (body : Walk α) : body.inScope.select o = (body.select o).inScope := rfl

theorem select_fork (first : Walk α) (second : Walk β) :
    (first.fork second).select o = (first.select o).fork (second.select o) := by
  funext env
  simp only [select, Outcome.select, fork_apply, List.filter_append]

theorem select_alternatives (exhaustive : Bool) (arms : List (Walk (Option ValueLevel))) :
    (Walk.alternatives exhaustive arms).select o
      = Walk.alternatives exhaustive (arms.map (Walk.select o)) := by
  funext env
  have hlog : ((arms.map fun arm => arm env).flatMap Outcome.log).filter o.keeps
      = ((arms.map (Walk.select o)).map fun arm => arm env).flatMap Outcome.log := by
    induction arms with
    | nil => rfl
    | cons arm rest ih =>
      simp only [List.map_cons, List.flatMap_cons, List.filter_append, ih]
      rfl
  simp only [select, Outcome.select, alternatives, hlog, List.map_map]
  rfl

end Walk

/-! ## What the steps of a walk log -/

/-- The same context under other options. -/
abbrev Context.under (ctx : Context) (o : Options) : Context :=
  { ctx with options := o }

section Logs

variable (o : Options)

theorem finding_select (d : Diagnostic) : (Options.finding {} d).filter o.keeps = o.finding d := by
  have hall : Options.admits {} d.kind = true := by cases d.kind <;> rfl
  rw [Options.finding, if_pos hall, List.filter_cons, List.filter_nil]
  rfl

/-- Under options, a judgement logs what they select of it. -/
theorem judgementLog_select (required : Level) (value : ValueLevel) (site : Site) (span : Span) :
    (judgementLog {} required value site span).filter o.keeps
      = judgementLog o required value site span := by
  simp only [judgementLog, List.filter_cons_of_pos (show o.keeps (.noted _) = true from rfl)]
  cases (judge required value site).diagnostic? required span with
  | none => rfl
  | some d =>
    rw [Option.toList_some, List.flatMap_singleton, List.flatMap_singleton, finding_select]

theorem redundancyLog_select (annotated : Level) (value : ValueLevel) (span : Option Span) :
    (redundancyLog {} annotated value span).filter o.keeps
      = redundancyLog o annotated value span := by
  unfold redundancyLog
  split
  · split
    · exact finding_select o _
    · rfl
  · rfl

theorem narrowingLog_select (declared : Level) (incoming : ValueLevel) (span : Span) :
    (narrowingLog {} declared incoming span).filter o.keeps
      = narrowingLog o declared incoming span := by
  unfold narrowingLog
  split
  · split
    · split
      · exact finding_select o _
      · rfl
    · rfl
  · rfl

/-- Conflicts are logged under any options. -/
theorem ofConflicts_select (id : DeclId) (cs : List Conflict) :
    (Event.ofConflicts id cs).filter o.keeps = Event.ofConflicts id cs := by
  rw [List.filter_eq_self]
  intro e he
  cases cs with
  | nil => cases he
  | cons c rest =>
    rcases List.mem_cons.1 he with rfl | he
    · rfl
    · obtain ⟨c', -, he⟩ := List.mem_flatMap.1 he
      rcases List.mem_cons.1 he with rfl | he
      · rfl
      · rw [List.mem_singleton.1 he]
        rfl

theorem positionLog_select (required : Option Level) (value : ValueLevel) (site : Site)
    (span : Span) : (positionLog {} required value site span).filter o.keeps
      = positionLog o required value site span := by
  cases required with
  | none => rfl
  | some required => exact judgementLog_select o required value site span

theorem assignmentLog_select (target : DeclId) (level : ValueLevel) (span : Span) (env : Env) :
    (assignmentLog {} target level span env).filter o.keeps
      = assignmentLog o target level span env := by
  unfold assignmentLog
  cases env.get? target with
  | none => rfl
  | some state =>
    cases hpinned : state.pinned with
    | none => simp only [hpinned, List.filter_nil]
    | some pinned =>
      simp only [hpinned, List.filter_append, judgementLog_select, redundancyLog_select]

variable (ctx : Context)

theorem staticType?_under (env : Env) : ∀ e : Expr,
    e.staticType? (ctx.under o) env = e.staticType? ctx env
  | .paren inner _ => by simpa only [Expr.staticType?] using staticType?_under env inner
  | .conditional _ thenExpr _ _ => by
    simpa only [Expr.staticType?] using staticType?_under env thenExpr
  | .assign _ value _ => by simpa only [Expr.staticType?] using staticType?_under env value
  | .null _ | .literal _ _ | .var _ _ | .self _ | .field _ _ _ | .call _ _ _ _ | .construct _ _ _
  | .singleton _ _ | .instanceOf _ _ _ | .switch _ _ _ | .other _ _ _ => by
    simp only [Expr.staticType?]

theorem keepsMarker_under (env : Env) (declared : Option String) (init : Expr) :
    init.keepsMarker (ctx.under o) env declared = init.keepsMarker ctx env declared := by
  simp only [Expr.keepsMarker, staticType?_under]

theorem initialState_under (decl : LocalDecl) (resolution : Resolution) (init : Expr)
    (value : ValueLevel) (env : Env) :
    (ctx.under o).initialState decl resolution init value env
      = ctx.initialState decl resolution init value env := by
  simp only [Context.initialState, staticType?_under, keepsMarker_under]
  rfl

variable {ctx} (hctx : ctx.options = {})
include hctx

/-- Under options, a first value logs what they select of it. -/
theorem initialLog_select (decl : LocalDecl) (resolution : Resolution) (init : Expr)
    (value : ValueLevel) (env : Env) :
    (ctx.initialLog decl resolution init value env).filter o.keeps
      = (ctx.under o).initialLog decl resolution init value env := by
  unfold Context.initialLog
  rw [initialState_under o ctx, List.filter_append]
  congr 1
  cases resolution.binding.bind Binding.explicit? with
  | none => rfl
  | some l =>
    simp only [hctx, List.filter_append, judgementLog_select, redundancyLog_select,
      keepsMarker_under]
    congr 1
    split <;> rfl

theorem bindingLog_select (var : PatternVar) (incoming : ValueLevel) :
    (ctx.bindingLog var incoming).filter o.keeps = (ctx.under o).bindingLog var incoming := by
  unfold Context.bindingLog
  rw [List.filter_append, List.filter_append, ofConflicts_select]
  congr 2
  cases (ctx.names.resolve var.annots).binding.bind Binding.explicit? with
  | none => rfl
  | some l => exact hctx ▸ redundancyLog_select o l incoming _

end Logs

/-! ## Bodies -/

section Bodies

variable {ctx : Context} (hctx : ctx.options = {}) (o : Options)
include hctx

omit hctx in
theorem resolveVariable_select (id : DeclId) (annots : List Annot) :
    (resolveVariable ctx id annots).select o = resolveVariable (ctx.under o) id annots := by
  funext env
  rw [Walk.select, resolveVariable_apply, resolveVariable_apply, Outcome.select,
    ofConflicts_select]

theorem checkAgainst_select (required : Option Level) (value : ValueLevel) (site : Site)
    (span : Span) :
    (checkAgainst ctx required value site span).select o
      = checkAgainst (ctx.under o) required value site span := by
  funext env
  rw [Walk.select, checkAgainst_apply, checkAgainst_apply, Outcome.select, hctx,
    positionLog_select]

theorem assignVariable_select (target : DeclId) (level : ValueLevel) (span : Span) :
    (assignVariable ctx target level span).select o
      = assignVariable (ctx.under o) target level span := by
  funext env
  rw [Walk.select, assignVariable_apply, assignVariable_apply, Outcome.select, hctx,
    assignmentLog_select]
  rfl

omit hctx in
theorem declareLocal_select (decl : LocalDecl) (resolution : Resolution) :
    (declareLocal ctx decl resolution).select o = declareLocal (ctx.under o) decl resolution := rfl

theorem initLocal_select (decl : LocalDecl) (resolution : Resolution) (init : Expr)
    (value : ValueLevel) :
    (initLocal ctx decl resolution init value).select o
      = initLocal (ctx.under o) decl resolution init value := by
  funext env
  rw [Walk.select, initLocal_apply, initLocal_apply, Outcome.select, initialLog_select o hctx,
    initialState_under o ctx]

theorem bindVariable_select (var : PatternVar) (incoming : ValueLevel) (type : Option String) :
    (bindVariable ctx var incoming type).select o
      = bindVariable (ctx.under o) var incoming type := by
  funext env
  rw [Walk.select, bindVariable_apply, bindVariable_apply, Outcome.select, bindingLog_select o hctx]

-- the linter does not look into the other theorems of a mutual block
set_option linter.unusedSectionVars false in
mutual

/-- Matching under options logs what they select, and does the same otherwise. -/
theorem bindPattern_select : ∀ (p : Pattern) (incoming : ValueLevel)
    (built : Option Construction),
    (bindPattern ctx incoming built p).select o = bindPattern (ctx.under o) incoming built p
  | .typeTest variant none span, incoming, built => by
    rw [bindPattern, bindPattern, Walk.select_bind, Walk.select_emit, hctx, narrowingLog_select]
    rfl
  | .typeTest variant (some var) span, incoming, built => by
    rw [bindPattern, bindPattern, Walk.select_bind, Walk.select_emit, hctx, narrowingLog_select]
    simp only [bindVariable_select hctx]
  | .variable var span, incoming, built => by
    rw [bindPattern, bindPattern, bindVariable_select hctx]
  | .record variant components span, incoming, built => by
    rw [bindPattern, bindPattern, Walk.select_bind, Walk.select_emit, hctx, narrowingLog_select]
    simp only [bindComponents_select components]
  | .wildcard span, incoming, built => by
    rw [bindPattern, bindPattern, Walk.select_pure]

theorem bindComponents_select : ∀ (ps : List Pattern) (level : Nat → ValueLevel) (index : Nat),
    (bindComponents ctx level index ps).select o = bindComponents (ctx.under o) level index ps
  | [], level, index => by rw [bindComponents, bindComponents, Walk.select_pure]
  | p :: rest, level, index => by
    rw [bindComponents, bindComponents, Walk.select_bind, bindPattern_select p]
    simp only [bindComponents_select rest]

end

set_option linter.unusedSectionVars false in
mutual

/-- **Evaluating under options logs what they select, and does the same otherwise.** -/
theorem eval_select : ∀ e : Expr, (eval ctx e).select o = eval (ctx.under o) e
  | .null _ | .literal _ _ => by rw [eval, eval, Walk.select_pure]
  | .var _ _ | .self _ | .singleton _ _ => by
    rw [eval, eval]
    rfl
  | .field receiver component _ => by
    rw [eval, eval, Walk.select_bind, evalOption_select receiver]
    rfl
  | .call receiver method args _ => by
    rw [eval, eval, Walk.select_bind, evalOption_select receiver]
    simp only [Walk.select_bind, evalArgs_select args, Walk.select_pure]
  | .construct variant args _ => by
    rw [eval, eval, Walk.select_bind, evalArgs_select args]
    rfl
  | .paren inner _ => by rw [eval, eval, eval_select inner]
  | .instanceOf operand pattern _ => by
    rw [eval, eval, Walk.select_bind, eval_select operand]
    simp only [Walk.select_bind, bindPattern_select hctx o pattern, Walk.select_pure]
  | .conditional condition thenExpr elseExpr _ => by
    rw [eval, eval, Walk.select_bind, eval_select condition]
    simp only [Walk.select_bind, Walk.select_fork, eval_select thenExpr, eval_select elseExpr,
      Walk.select_pure]
  | .switch scrutinee arms _ => by
    rw [eval, eval, Walk.select_bind, eval_select scrutinee]
    simp only [Walk.select_bind, Walk.select_alternatives, runArms_select arms, Walk.select_pure]
  | .assign target value _ => by
    rw [eval, eval, Walk.select_bind, eval_select value]
    simp only [Walk.select_bind, assignVariable_select hctx, Walk.select_pure]
  | .other _ children _ => by
    rw [eval, eval, Walk.select_bind, evalArgs_select children]
    rfl

theorem evalOption_select : ∀ e : Option Expr,
    (evalOption ctx e).select o = evalOption (ctx.under o) e
  | none => by rw [evalOption, evalOption, Walk.select_pure]
  | some e => by
    rw [evalOption, evalOption, Walk.select_bind, eval_select e]
    rfl

theorem evalArgs_select : ∀ (es : List Expr) (required : Nat → Option Level) (index : Nat),
    (evalArgs ctx required index es).select o = evalArgs (ctx.under o) required index es
  | [], required, index => by rw [evalArgs, evalArgs, Walk.select_pure]
  | e :: rest, required, index => by
    rw [evalArgs, evalArgs, Walk.select_bind, eval_select e]
    simp only [Walk.select_bind, checkAgainst_select hctx, evalArgs_select rest, Walk.select_pure]

theorem runArms_select : ∀ (arms : List Arm) (scrutinee : Evaluated),
    (runArms ctx scrutinee arms).map (Walk.select o) = runArms (ctx.under o) scrutinee arms
  | [], scrutinee => by rw [runArms, runArms, List.map_nil]
  | .mk label body _ :: rest, scrutinee => by
    rw [runArms, runArms, List.map_cons, runArms_select rest, Walk.select_inScope,
      Walk.select_bind, bindLabel_select label, runBody_select body]

theorem bindLabel_select : ∀ (label : Label) (scrutinee : Evaluated),
    (bindLabel ctx scrutinee label).select o = bindLabel (ctx.under o) scrutinee label
  | .pattern pattern, scrutinee => by
    rw [bindLabel, bindLabel, bindPattern_select hctx o pattern]
  | .constant expr, scrutinee => by
    rw [bindLabel, bindLabel, Walk.select_bind, eval_select expr]
    rfl
  | .default, scrutinee => by rw [bindLabel, bindLabel, Walk.select_pure]

theorem runBody_select : ∀ body : ArmBody, (runBody ctx body).select o = runBody (ctx.under o) body
  | .expr expr => by
    rw [runBody, runBody, Walk.select_bind, eval_select expr]
    rfl
  | .block block => by
    rw [runBody, runBody, Walk.select_bind, execBlock_select block]
    rfl

/-- **Executing under options logs what they select, and does the same otherwise.** -/
theorem exec_select : ∀ s : Stmt, (exec ctx s).select o = exec (ctx.under o) s
  | .declare decl none _ => by
    rw [exec, exec, Walk.select_bind, resolveVariable_select]
    simp only [declareLocal_select]
  | .declare decl (some init) _ => by
    rw [exec, exec, Walk.select_bind, resolveVariable_select]
    simp only [Walk.select_bind, eval_select init, initLocal_select hctx]
  | .expr expr _ => by
    rw [exec, exec, Walk.select_bind, eval_select expr]
    rfl
  | .ifElse condition thenBranch elseBranch _ => by
    rw [exec, exec, Walk.select_inScope, Walk.select_bind, eval_select condition]
    simp only [Walk.select_bind, Walk.select_fork, execBlock_select thenBranch,
      execOption_select elseBranch, Walk.select_pure]
  | .loop condition body _ => by
    rw [exec, exec, Walk.select_inScope, Walk.select_bind, eval_select condition]
    simp only [Walk.select_bind, Walk.select_fork, execBlock_select body, Walk.select_pure]
  | .switch scrutinee arms _ => by
    rw [exec, exec, Walk.select_bind, eval_select scrutinee]
    simp only [Walk.select_bind, Walk.select_alternatives, runArms_select arms, Walk.select_pure]
  | .ret none _ => by rw [exec, exec, Walk.select_pure]
  | .ret (some value) _ => by
    rw [exec, exec, Walk.select_bind, eval_select value]
    simp only [checkAgainst_select hctx]
  | .block block _ => by rw [exec, exec, execBlock_select block]

theorem execAll_select : ∀ stmts : List Stmt,
    (execAll ctx stmts).select o = execAll (ctx.under o) stmts
  | [] => by rw [execAll, execAll, Walk.select_pure]
  | s :: rest => by
    rw [execAll, execAll, Walk.select_bind, exec_select s]
    simp only [execAll_select rest]

theorem execBlock_select : ∀ block : Block,
    (execBlock ctx block).select o = execBlock (ctx.under o) block
  | .mk stmts _ => by rw [execBlock, execBlock, Walk.select_inScope, execAll_select stmts]

theorem execOption_select : ∀ block : Option Block,
    (execOption ctx block).select o = execOption (ctx.under o) block
  | none => by rw [execOption, execOption, Walk.select_pure]
  | some block => by rw [execOption, execOption, execBlock_select block]

end

end Bodies

/-! ## Units -/

/-- A checker under some options logs what one under all of them does, less the findings that are
not asked for. -/
theorem checkMethod_select (names : Names) (model : Model) (o : Options) (m : Method) :
    (Checker.checkMethod names model { options := o } m).2
      = (checkMethod names model m).filter o.keeps := by
  rw [Checker.checkMethod_eq, checkMethod_eq]
  cases m.body with
  | none => rfl
  | some body =>
    have hlog : (execAll ((Context.ofMethod names model m).under o) body.stmts
        (Env.ofParams model m.params)).log
        = ((execAll (Context.ofMethod names model m) body.stmts
          (Env.ofParams model m.params)).log).filter o.keeps := by
      rw [← execAll_select rfl]
      rfl
    show _ :: _ = List.filter _ (_ :: _)
    rw [hlog, List.filter_cons_of_pos rfl]

/-- Conflicts are never left out. -/
theorem Model.log_select (names : Names) (o : Options) (u : CompilationUnit) :
    (Model.log names u).filter o.keeps = Model.log names u := by
  have hheaders : ∀ ds : List Declaration, (ds.flatMap (declarationLog names)).filter o.keeps
      = ds.flatMap (declarationLog names) := by
    intro ds
    induction ds with
    | nil => rfl
    | cons d rest ih =>
      rw [List.flatMap_cons, List.filter_append, ih, declarationLog, ofConflicts_select]
  rw [Model.log, List.filter_append, hheaders]
  rfl

/-- **A run under some options logs what a run under all of them does**, less the findings that are
not asked for. -/
theorem runLog_eq_filter (config : Config) (u : CompilationUnit) :
    runLog config u = (checkLog config.names u).filter config.options.keeps := by
  rw [runLog_eq, checkLog_eq, List.filter_append, Model.log_select]
  congr 1
  induction u.allMethods with
  | nil => rfl
  | cons m rest ih =>
    rw [List.flatMap_cons, List.flatMap_cons, List.filter_append, ih, checkMethod_select]

end Closedness
