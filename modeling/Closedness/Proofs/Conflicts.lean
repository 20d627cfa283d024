import Closedness.Proofs.Shape
import Mathlib.Data.List.Perm.Basic

/-!
# Conflicting annotations

The walk resolves the annotations of a variable where it is declared, and every other part of the
analysis leaves conflicts alone. So the conflicts in the log of a body are those of the variables
the body declares, in source order and once each (`execAll_conflicts`), whatever the environment
the walk starts from. With the headers, which are resolved when the model is built, they are the
conflicts of all declarations of the unit.
-/

namespace Closedness

namespace Event

/-- The event belongs to the conflicts of a declaration. -/
def isConflict : Event → Bool
  | .found d => d.kind = .annotationConflict
  | .unreliable _ => true
  | .noted (.conflict _ _ _) => true
  | .noted _ => false

/-- The conflicts of a log. -/
def conflicts (log : List Event) : List Event :=
  log.filter isConflict

@[simp] theorem conflicts_nil : conflicts [] = [] := rfl

@[simp] theorem conflicts_append (a b : List Event) :
    conflicts (a ++ b) = conflicts a ++ conflicts b :=
  List.filter_append ..

/-- What the conflicts of a declaration log is nothing but conflicts. -/
@[simp] theorem conflicts_ofConflicts (id : DeclId) (cs : List Conflict) :
    conflicts (ofConflicts id cs) = ofConflicts id cs := by
  unfold conflicts
  rw [List.filter_eq_self]
  intro e he
  cases cs with
  | nil => cases he
  | cons c rest =>
    rcases List.mem_cons.1 he with rfl | he
    · rfl
    · obtain ⟨c', -, he⟩ := List.mem_flatMap.1 he
      rcases List.mem_cons.1 he with rfl | he
      · rfl
      · rw [List.mem_singleton.1 he]
        rfl

end Event

/-! ## The steps of a walk -/

theorem conflicts_finding (options : Options) {d : Diagnostic}
    (h : d.kind ≠ .annotationConflict) : Event.conflicts (options.finding d) = [] := by
  unfold Options.finding
  split
  · simp [Event.conflicts, Event.isConflict, h]
  · rfl

@[simp] theorem conflicts_judgementLog (options : Options) (required : Level) (value : ValueLevel)
    (site : Site) (span : Span) :
    Event.conflicts (judgementLog options required value site span) = [] := by
  show Event.conflicts (((judge required value site).diagnostic? required span).toList.flatMap
    options.finding) = []
  cases judge required value site with
  | pass => rfl
  | mismatch actual | cast actual | unchecked =>
    rw [Verdict.diagnostic?, Option.toList_some, List.flatMap_singleton]
    exact conflicts_finding options (fun h => nomatch h)

@[simp] theorem conflicts_redundancyLog (options : Options) (annotated : Level)
    (value : ValueLevel) (span : Option Span) :
    Event.conflicts (redundancyLog options annotated value span) = [] := by
  unfold redundancyLog
  split
  · split
    · exact conflicts_finding options (fun h => nomatch h)
    · rfl
  · rfl

@[simp] theorem conflicts_narrowingLog (options : Options) (declared : Level)
    (incoming : ValueLevel) (span : Span) :
    Event.conflicts (narrowingLog options declared incoming span) = [] := by
  unfold narrowingLog
  split
  · split
    · split
      · exact conflicts_finding options (fun h => nomatch h)
      · rfl
    · rfl
  · rfl

@[simp] theorem conflicts_positionLog (options : Options) (required : Option Level)
    (value : ValueLevel) (site : Site) (span : Span) :
    Event.conflicts (positionLog options required value site span) = [] := by
  cases required with
  | none => rfl
  | some required => exact conflicts_judgementLog options required value site span

@[simp] theorem conflicts_assignmentLog (options : Options) (target : DeclId) (level : ValueLevel)
    (span : Span) (env : Env) :
    Event.conflicts (assignmentLog options target level span env) = [] := by
  unfold assignmentLog
  cases env.get? target with
  | none => rfl
  | some state => cases hpinned : state.pinned <;> simp [hpinned]

@[simp] theorem conflicts_initialLog (ctx : Context) (decl : LocalDecl) (resolution : Resolution)
    (init : Expr) (value : ValueLevel) (env : Env) :
    Event.conflicts (ctx.initialLog decl resolution init value env) = [] := by
  unfold Context.initialLog
  cases resolution.binding.bind Binding.explicit? with
  | none => rfl
  | some l =>
    simp only [Event.conflicts_append, conflicts_judgementLog, conflicts_redundancyLog]
    split <;> rfl

/-- Binding a pattern variable logs its own conflicts. -/
@[simp] theorem conflicts_bindingLog (ctx : Context) (var : PatternVar) (incoming : ValueLevel) :
    Event.conflicts (ctx.bindingLog var incoming)
      = Model.declarationLog ctx.names var.declaration := by
  have hnote : ∀ l, Event.conflicts [.noted (.matched var.name l incoming)] = [] := fun _ => rfl
  simp only [Context.bindingLog, Event.conflicts_append, Event.conflicts_ofConflicts, hnote]
  split <;> simp [Model.declarationLog, PatternVar.declaration]

/-! ## Bodies -/

mutual

/-- Matching logs the conflicts of the variables in the pattern, in source order. -/
theorem bindPattern_conflicts (ctx : Context) : ∀ (p : Pattern) (incoming : ValueLevel)
    (built : Option Construction) (env : Env),
    Event.conflicts (bindPattern ctx incoming built p env).log
      = p.declarations.flatMap (Model.declarationLog ctx.names)
  | .typeTest variant none span, incoming, built, env => by
    simp [bindPattern, Pattern.declarations]
  | .typeTest variant (some var) span, incoming, built, env => by
    simp [bindPattern, Pattern.declarations]
  | .variable var span, incoming, built, env => by
    simp [bindPattern, Pattern.declarations]
  | .record variant components span, incoming, built, env => by
    simp [bindPattern, Pattern.declarations, bindComponents_conflicts ctx components]
  | .wildcard span, incoming, built, env => by
    simp [bindPattern, Pattern.declarations]

theorem bindComponents_conflicts (ctx : Context) : ∀ (ps : List Pattern) (level : Nat → ValueLevel)
    (index : Nat) (env : Env),
    Event.conflicts (bindComponents ctx level index ps env).log
      = (Pattern.listDeclarations ps).flatMap (Model.declarationLog ctx.names)
  | [], level, index, env => by
    simp [bindComponents, Pattern.listDeclarations]
  | p :: rest, level, index, env => by
    simp [bindComponents, Pattern.listDeclarations, bindPattern_conflicts ctx p,
      bindComponents_conflicts ctx rest]

end

mutual

/-- Evaluating an expression logs the conflicts of the variables it declares. -/
theorem eval_conflicts (ctx : Context) : ∀ (e : Expr) (env : Env),
    Event.conflicts (eval ctx e env).log
      = e.declarations.flatMap (Model.declarationLog ctx.names)
  | .null _, env | .literal _ _, env | .var _ _, env | .self _, env | .singleton _ _, env => by
    simp [eval, Expr.declarations]
  | .field receiver component _, env => by
    simp [eval, Expr.declarations, evalOption_conflicts ctx receiver]
  | .call receiver method args _, env => by
    simp [eval, Expr.declarations, evalOption_conflicts ctx receiver, evalArgs_conflicts ctx args]
  | .construct variant args _, env => by
    simp [eval, Expr.declarations, evalArgs_conflicts ctx args]
  | .paren inner _, env => by
    simp [eval, Expr.declarations, eval_conflicts ctx inner]
  | .instanceOf operand pattern _, env => by
    simp [eval, Expr.declarations, eval_conflicts ctx operand, bindPattern_conflicts]
  | .conditional condition thenExpr elseExpr _, env => by
    simp [eval, Expr.declarations, eval_conflicts ctx condition, eval_conflicts ctx thenExpr,
      eval_conflicts ctx elseExpr]
  | .switch scrutinee arms _, env => by
    simp [eval, Expr.declarations, Walk.alternatives, eval_conflicts ctx scrutinee,
      runArms_conflicts ctx arms]
  | .assign target value _, env => by
    simp [eval, Expr.declarations, eval_conflicts ctx value]
  | .other _ children _, env => by
    simp [eval, Expr.declarations, evalArgs_conflicts ctx children]

theorem evalOption_conflicts (ctx : Context) : ∀ (e : Option Expr) (env : Env),
    Event.conflicts (evalOption ctx e env).log
      = (Expr.optionDeclarations e).flatMap (Model.declarationLog ctx.names)
  | none, env => by simp [evalOption, Expr.optionDeclarations]
  | some e, env => by simp [evalOption, Expr.optionDeclarations, eval_conflicts ctx e]

theorem evalArgs_conflicts (ctx : Context) : ∀ (es : List Expr) (required : Nat → Option Level)
    (index : Nat) (env : Env),
    Event.conflicts (evalArgs ctx required index es env).log
      = (Expr.listDeclarations es).flatMap (Model.declarationLog ctx.names)
  | [], required, index, env => by simp [evalArgs, Expr.listDeclarations]
  | e :: rest, required, index, env => by
    simp [evalArgs, Expr.listDeclarations, eval_conflicts ctx e, evalArgs_conflicts ctx rest]

/-- The arms of a switch log the conflicts of the variables they declare, arm by arm. -/
theorem runArms_conflicts (ctx : Context) : ∀ (arms : List Arm) (scrutinee : Evaluated) (env : Env),
    Event.conflicts (((runArms ctx scrutinee arms).map fun arm => arm env).flatMap Outcome.log)
      = (Arm.listDeclarations arms).flatMap (Model.declarationLog ctx.names)
  | [], scrutinee, env => by simp [runArms, Arm.listDeclarations]
  | .mk label body _ :: rest, scrutinee, env => by
    simp [runArms, Arm.listDeclarations, bindLabel_conflicts ctx label, runBody_conflicts ctx body,
      runArms_conflicts ctx rest]

theorem bindLabel_conflicts (ctx : Context) : ∀ (label : Label) (scrutinee : Evaluated) (env : Env),
    Event.conflicts (bindLabel ctx scrutinee label env).log
      = label.declarations.flatMap (Model.declarationLog ctx.names)
  | .pattern pattern, scrutinee, env => by
    simp [bindLabel, Label.declarations, bindPattern_conflicts]
  | .constant expr, scrutinee, env => by
    simp [bindLabel, Label.declarations, eval_conflicts ctx expr]
  | .default, scrutinee, env => by simp [bindLabel, Label.declarations]

theorem runBody_conflicts (ctx : Context) : ∀ (body : ArmBody) (env : Env),
    Event.conflicts (runBody ctx body env).log
      = body.declarations.flatMap (Model.declarationLog ctx.names)
  | .expr expr, env => by simp [runBody, ArmBody.declarations, eval_conflicts ctx expr]
  | .block block, env => by simp [runBody, ArmBody.declarations, execBlock_conflicts ctx block]

/-- Running a statement logs the conflicts of the variables it declares. -/
theorem exec_conflicts (ctx : Context) : ∀ (s : Stmt) (env : Env),
    Event.conflicts (exec ctx s env).log = s.declarations.flatMap (Model.declarationLog ctx.names)
  | .declare decl none _, env => by
    simp [exec, Stmt.declarations, Expr.optionDeclarations, Model.declarationLog,
      LocalDecl.declaration]
  | .declare decl (some init) _, env => by
    simp [exec, Stmt.declarations, Expr.optionDeclarations, Model.declarationLog,
      LocalDecl.declaration, eval_conflicts ctx init]
  | .expr expr _, env => by simp [exec, Stmt.declarations, eval_conflicts ctx expr]
  | .ifElse condition thenBranch elseBranch _, env => by
    simp [exec, Stmt.declarations, eval_conflicts ctx condition,
      execBlock_conflicts ctx thenBranch, execOption_conflicts ctx elseBranch]
  | .loop condition body _, env => by
    simp [exec, Stmt.declarations, eval_conflicts ctx condition, execBlock_conflicts ctx body]
  | .switch scrutinee arms _, env => by
    simp [exec, Stmt.declarations, Walk.alternatives, eval_conflicts ctx scrutinee,
      runArms_conflicts ctx arms]
  | .ret none _, env => by simp [exec, Stmt.declarations, Expr.optionDeclarations]
  | .ret (some value) _, env => by
    simp [exec, Stmt.declarations, Expr.optionDeclarations, eval_conflicts ctx value]
  | .block block _, env => by simp [exec, Stmt.declarations, execBlock_conflicts ctx block]

/-- Running statements logs the conflicts of the variables they declare, in order. -/
theorem execAll_conflicts (ctx : Context) : ∀ (stmts : List Stmt) (env : Env),
    Event.conflicts (execAll ctx stmts env).log
      = (Stmt.listDeclarations stmts).flatMap (Model.declarationLog ctx.names)
  | [], env => by simp [execAll, Stmt.listDeclarations]
  | s :: rest, env => by
    simp [execAll, Stmt.listDeclarations, exec_conflicts ctx s, execAll_conflicts ctx rest]

theorem execBlock_conflicts (ctx : Context) : ∀ (block : Block) (env : Env),
    Event.conflicts (execBlock ctx block env).log
      = block.declarations.flatMap (Model.declarationLog ctx.names)
  | .mk stmts _, env => by simp [execBlock, Block.declarations, execAll_conflicts ctx stmts]

theorem execOption_conflicts (ctx : Context) : ∀ (block : Option Block) (env : Env),
    Event.conflicts (execOption ctx block env).log
      = (Block.optionDeclarations block).flatMap (Model.declarationLog ctx.names)
  | none, env => by simp [execOption, Block.optionDeclarations]
  | some block, env => by
    simp [execOption, Block.optionDeclarations, execBlock_conflicts ctx block]

end

/-! ## Units -/

/-- A method logs the conflicts of the variables in its body. -/
theorem checkMethod_conflicts (names : Names) (model : Model) (m : Method) :
    Event.conflicts (checkMethod names model m)
      = (Block.optionDeclarations m.body).flatMap (Model.declarationLog names) := by
  rw [checkMethod_eq]
  cases hbody : m.body with
  | none => rfl
  | some body =>
    obtain ⟨stmts, span⟩ := body
    exact execAll_conflicts (Context.ofMethod names model m) stmts _

/-- Setting up the tables logs the conflicts of the headers. -/
theorem Model.log_conflicts (names : Names) (u : CompilationUnit) :
    Event.conflicts (Model.log names u) = (headers u).flatMap (declarationLog names) := by
  have hself : ∀ ds : List Declaration, Event.conflicts (ds.flatMap (declarationLog names))
      = ds.flatMap (declarationLog names) := by
    intro ds
    induction ds with
    | nil => rfl
    | cons d rest ih => simp [declarationLog, ih]
  have hnote : ∀ t c m, Event.conflicts [.noted (.model u.name t c m)] = [] := fun _ _ _ => rfl
  simp only [Model.log, Event.conflicts_append, hself, hnote, List.append_nil]

/-- The conflicts that the analysis of a unit logs are those of its declarations. -/
theorem checkLog_conflicts_perm (names : Names) (u : CompilationUnit) :
    (Event.conflicts (checkLog names u)).Perm
      (u.declarations.flatMap (Model.declarationLog names)) := by
  have hbodies : ∀ ms : List Method,
      Event.conflicts (ms.flatMap (checkMethod names (Model.ofUnit names u)))
        = (ms.flatMap fun m => Block.optionDeclarations m.body).flatMap
          (Model.declarationLog names) := by
    intro ms
    induction ms with
    | nil => rfl
    | cons m rest ih => simp [checkMethod_conflicts, ih]
  rw [checkLog_eq, Event.conflicts_append, Model.log_conflicts, hbodies, ← List.flatMap_append]
  exact (headers_append_bodies_perm u).flatMap_right _

/-! ## Reports -/

/-- The finding that reports a conflict. -/
def Conflict.diagnostic (c : Conflict) : Diagnostic :=
  .annotationConflict c.span c.winner c.loser

/-- A conflict is reported once for each marker that loses. -/
theorem Event.diagnostics_ofConflicts (id : DeclId) (cs : List Conflict) :
    diagnostics (ofConflicts id cs) = cs.map Conflict.diagnostic := by
  have hflat : ∀ cs : List Conflict, diagnostics (cs.flatMap fun c =>
      [.noted (.conflict id c.winner c.loser),
        .found (.annotationConflict c.span c.winner c.loser)]) = cs.map Conflict.diagnostic := by
    intro cs
    induction cs with
    | nil => rfl
    | cons c rest ih => exact congrArg (c.diagnostic :: ·) ih
  cases cs with
  | nil => rfl
  | cons c rest => exact hflat (c :: rest)

/-- A declaration is marked just when it has conflicts. -/
theorem Event.unreliable_mem_ofConflicts (id other : DeclId) (cs : List Conflict) :
    .unreliable other ∈ ofConflicts id cs ↔ other = id ∧ cs ≠ [] := by
  cases cs with
  | nil => simp [ofConflicts]
  | cons c rest => simp [ofConflicts]

/-- The diagnostics among the conflicts of a log are its diagnostics of that kind. -/
theorem Event.diagnostics_conflicts (log : List Event) :
    diagnostics (conflicts log)
      = (diagnostics log).filter fun d => d.kind = .annotationConflict := by
  unfold diagnostics conflicts
  rw [List.filterMap_filter, List.filter_filterMap]
  congr 1
  funext e
  rcases e with d | id | n
  · by_cases hkind : d.kind = .annotationConflict <;>
      simp [isConflict, diagnostic?, hkind, Option.filter]
  · rfl
  · cases n <;> rfl

/-- The conflict findings of a report, in some order. -/
theorem check_conflicts_perm (config : Config) (u : CompilationUnit) :
    ((check config u).diagnostics.filter fun d => d.kind = .annotationConflict).Perm
      (u.declarations.flatMap fun d =>
        (config.names.resolve d.annots).conflicts.map Conflict.diagnostic) := by
  refine ((check_diagnostics_perm config u).filter _).trans ?_
  rw [List.filter_filter]
  have hfilter : ((Event.diagnostics (checkLog config.names u)).filter fun d =>
      decide (d.kind = .annotationConflict) && config.options.admits d.kind)
        = Event.diagnostics (Event.conflicts (checkLog config.names u)) := by
    rw [Event.diagnostics_conflicts]
    refine List.filter_congr fun d _ => ?_
    by_cases hkind : d.kind = .annotationConflict
    · simp [hkind, Options.admits]
    · simp [hkind]
  rw [hfilter]
  have hperm := (checkLog_conflicts_perm config.names u).filterMap Event.diagnostic?
  rw [List.filterMap_flatMap] at hperm
  refine hperm.trans (.of_eq (List.flatMap_congr fun d _ => ?_))
  exact Event.diagnostics_ofConflicts d.id _

/-- A report lists the declarations that have conflicts. -/
theorem mem_check_unreliable_iff (config : Config) (u : CompilationUnit) (id : DeclId) :
    id ∈ (check config u).unreliable ↔
      ∃ d ∈ u.declarations, d.id = id ∧ (config.names.resolve d.annots).conflicts ≠ [] := by
  have hlog : .unreliable id ∈ checkLog config.names u ↔
      .unreliable id ∈ Event.conflicts (checkLog config.names u) := by
    simp [Event.conflicts, Event.isConflict]
  rw [mem_check_unreliable, hlog, (checkLog_conflicts_perm config.names u).mem_iff,
    List.mem_flatMap]
  simp only [Model.declarationLog, Event.unreliable_mem_ofConflicts, eq_comm]

/-- Only a conflict is an error. -/
theorem severity_eq_error_iff {k : DiagnosticKind} :
    k.severity = .error ↔ k = .annotationConflict := by
  cases k <;> simp [DiagnosticKind.severity]

/-- A report has errors just when some declaration has conflicts. -/
theorem check_hasErrors_iff (config : Config) (u : CompilationUnit) :
    (check config u).hasErrors = true ↔
      ∃ d ∈ u.declarations, (config.names.resolve d.annots).conflicts ≠ [] := by
  have herror : ∀ s : Severity, Severity.error.rank ≤ s.rank ↔ s = .error := by
    intro s
    cases s <;> decide
  unfold Report.hasErrors Report.countAtLeast
  rw [decide_eq_true_eq, List.countP_pos_iff]
  simp only [herror, decide_eq_true_eq]
  constructor
  · rintro ⟨d, hd, hsev⟩
    have hshape : d.WellShaped := wellShaped_of_mem_checkLog
      (List.mem_filter.1 ((check_diagnostics_perm config u).mem_iff.1 hd)).1
    have hkind : d.kind = .annotationConflict := severity_eq_error_iff.1 (hshape.severity ▸ hsev)
    have hmem := (check_conflicts_perm config u).mem_iff.1
      (List.mem_filter.2 ⟨hd, decide_eq_true hkind⟩)
    obtain ⟨decl, hdecl, hc⟩ := List.mem_flatMap.1 hmem
    exact ⟨decl, hdecl, fun e => by simp [e] at hc⟩
  · rintro ⟨decl, hdecl, hne⟩
    obtain ⟨c, hc⟩ := List.exists_mem_of_ne_nil _ hne
    have hmem := (check_conflicts_perm config u).mem_iff.2
      (List.mem_flatMap.2 ⟨decl, hdecl, List.mem_map_of_mem hc⟩)
    exact ⟨c.diagnostic, (List.mem_filter.1 hmem).1, rfl⟩

/-- **The walk loses no conflict and repeats none.** The conflict findings of a report are those of
the declarations of its unit, each as often as it occurs; the declarations that have conflicts are
listed once each, by number; and there are errors just when there is such a declaration. -/
theorem check_conflicts (config : Config) (u : CompilationUnit) :
    ((check config u).diagnostics.filter fun d => d.kind = .annotationConflict).Perm
        (u.declarations.flatMap fun d =>
          (config.names.resolve d.annots).conflicts.map Conflict.diagnostic) ∧
      ((check config u).unreliable.Pairwise fun a b => a.val < b.val) ∧
      (∀ id, id ∈ (check config u).unreliable ↔
        ∃ d ∈ u.declarations, d.id = id ∧ (config.names.resolve d.annots).conflicts ≠ []) ∧
      ((check config u).hasErrors = true ↔
        ∃ d ∈ u.declarations, (config.names.resolve d.annots).conflicts ≠ []) :=
  ⟨check_conflicts_perm config u, pairwise_check_unreliable config u,
    mem_check_unreliable_iff config u, check_hasErrors_iff config u⟩

end Closedness
