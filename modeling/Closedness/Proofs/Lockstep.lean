import Closedness.Proofs.Occurrences
import Closedness.Proofs.Weakening

/-!
# Walking code with other annotations

A `Reannotation` gives the variables of a body other annotations, and changes nothing else. A
`Lockstep` compares the walk through a body with the walk through the same body reannotated: it
relates what the two walks know of each variable and what they log, and says how the steps that
depend on annotations keep that (declaring, binding and assigning to a variable). All other steps
are the same on both walks. What is asked of a step may depend on where the first walk is
(`Lockstep.visits`).

From this the two walks stay related through the whole body (`Lockstep.execAll_lockstep`). With the
annotations as they are, a lockstep is an invariant of one walk.
-/

namespace Closedness

/-! ## Other annotations -/

/-- Other annotations for the variables that a body declares. -/
abbrev Reannotation := DeclId → List Annot → List Annot

section Reannotate

variable (r : Reannotation)

def LocalDecl.reannotate (d : LocalDecl) : LocalDecl :=
  { d with annots := r d.id d.annots }

def PatternVar.reannotate (v : PatternVar) : PatternVar :=
  { v with annots := r v.id v.annots }

mutual

def Pattern.reannotate : Pattern → Pattern
  | .typeTest variant var span => .typeTest variant (var.map (PatternVar.reannotate r)) span
  | .variable var span => .variable (var.reannotate r) span
  | .record variant components span => .record variant (Pattern.reannotateList components) span
  | .wildcard span => .wildcard span

def Pattern.reannotateList : List Pattern → List Pattern
  | [] => []
  | p :: rest => p.reannotate :: Pattern.reannotateList rest

end

mutual

def Expr.reannotate : Expr → Expr
  | .null span => .null span
  | .literal type span => .literal type span
  | .var decl span => .var decl span
  | .self span => .self span
  | .field receiver component span => .field (Expr.reannotateOption receiver) component span
  | .call receiver method args span =>
    .call (Expr.reannotateOption receiver) method (Expr.reannotateList args) span
  | .construct variant args span => .construct variant (Expr.reannotateList args) span
  | .singleton variant span => .singleton variant span
  | .paren inner span => .paren inner.reannotate span
  | .instanceOf operand pattern span => .instanceOf operand.reannotate (pattern.reannotate r) span
  | .conditional condition thenExpr elseExpr span =>
    .conditional condition.reannotate thenExpr.reannotate elseExpr.reannotate span
  | .switch scrutinee arms span => .switch scrutinee.reannotate (Arm.reannotateList arms) span
  | .assign target value span => .assign target value.reannotate span
  | .other type children span => .other type (Expr.reannotateList children) span

def Expr.reannotateOption : Option Expr → Option Expr
  | none => none
  | some e => some e.reannotate

def Expr.reannotateList : List Expr → List Expr
  | [] => []
  | e :: rest => e.reannotate :: Expr.reannotateList rest

def Stmt.reannotate : Stmt → Stmt
  | .declare decl init span => .declare (decl.reannotate r) (Expr.reannotateOption init) span
  | .expr expr span => .expr expr.reannotate span
  | .ifElse condition thenBranch elseBranch span =>
    .ifElse condition.reannotate thenBranch.reannotate (Block.reannotateOption elseBranch) span
  | .loop condition body span => .loop condition.reannotate body.reannotate span
  | .switch scrutinee arms span => .switch scrutinee.reannotate (Arm.reannotateList arms) span
  | .ret value span => .ret (Expr.reannotateOption value) span
  | .block block span => .block block.reannotate span

def Stmt.reannotateList : List Stmt → List Stmt
  | [] => []
  | s :: rest => s.reannotate :: Stmt.reannotateList rest

/-- The block with other annotations on the variables it declares. -/
def Block.reannotate : Block → Block
  | .mk stmts span => .mk (Stmt.reannotateList stmts) span

def Block.reannotateOption : Option Block → Option Block
  | none => none
  | some block => some block.reannotate

def Arm.reannotateList : List Arm → List Arm
  | [] => []
  | .mk label body span :: rest =>
    .mk label.reannotate body.reannotate span :: Arm.reannotateList rest

def Label.reannotate : Label → Label
  | .pattern pattern => .pattern (pattern.reannotate r)
  | .constant expr => .constant expr.reannotate
  | .default => .default

def ArmBody.reannotate : ArmBody → ArmBody
  | .expr expr => .expr expr.reannotate
  | .block block => .block block.reannotate

end

/-! ### What annotations do not change -/

@[simp] theorem Expr.span_reannotate (e : Expr) : (e.reannotate r).span = e.span := by
  cases e <;> rfl

theorem Expr.isNullLiteral_reannotate : ∀ e : Expr,
    (e.reannotate r).isNullLiteral = e.isNullLiteral
  | .paren inner _ => isNullLiteral_reannotate inner
  | .null _ | .literal _ _ | .var _ _ | .self _ | .field _ _ _ | .call _ _ _ _ | .construct _ _ _
  | .singleton _ _ | .instanceOf _ _ _ | .conditional _ _ _ _ | .switch _ _ _ | .assign _ _ _
  | .other _ _ _ => rfl

/-- Static types do not depend on the annotations of variables. -/
theorem Expr.staticType?_reannotate (ctx : Context) (env : Env) : ∀ e : Expr,
    (e.reannotate r).staticType? ctx env = e.staticType? ctx env
  | .paren inner _ => staticType?_reannotate ctx env inner
  | .conditional _ thenExpr _ _ => staticType?_reannotate ctx env thenExpr
  | .assign _ value _ => staticType?_reannotate ctx env value
  | .null _ | .literal _ _ | .var _ _ | .self _ | .field _ _ _ | .call _ _ _ _ | .construct _ _ _
  | .singleton _ _ | .instanceOf _ _ _ | .switch _ _ _ | .other _ _ _ => rfl

theorem Expr.keepsMarker_reannotate (ctx : Context) (env : Env) (declared : Option String)
    (e : Expr) :
    (e.reannotate r).keepsMarker ctx env declared = e.keepsMarker ctx env declared := by
  simp only [keepsMarker, isNullLiteral_reannotate, staticType?_reannotate]

theorem Arm.any_isDefault_reannotate (arms : List Arm) :
    (Arm.reannotateList r arms).any Arm.isDefault = arms.any Arm.isDefault := by
  induction arms with
  | nil => rfl
  | cons a rest ih =>
    obtain ⟨label, body, span⟩ := a
    have hdefault : (Arm.mk (label.reannotate r) (body.reannotate r) span).isDefault =
        (Arm.mk label body span).isDefault := by
      cases label <;> rfl
    rw [reannotateList, List.any_cons, List.any_cons, ih, hdefault]

variable (ctx : Context) (decl : LocalDecl) (resolution : Resolution) (e : Expr)
  (value : ValueLevel) (env : Env)

/-- The annotations of a local count only as what they resolve to. -/
theorem Context.initialState_reannotate :
    ctx.initialState (decl.reannotate r) resolution (e.reannotate r) value env =
      ctx.initialState decl resolution e value env := by
  simp only [initialState, Expr.staticType?_reannotate, Expr.keepsMarker_reannotate]
  rfl

theorem Context.initialLog_reannotate :
    ctx.initialLog (decl.reannotate r) resolution (e.reannotate r) value env =
      ctx.initialLog decl resolution e value env := by
  simp only [initialLog, initialState_reannotate, Expr.keepsMarker_reannotate,
    Expr.span_reannotate]
  rfl

end Reannotate

/-! ## Walks in lockstep -/

/-- What the walks through a body and through the same body reannotated have to do with each other,
wherever the first one gets to. -/
structure Lockstep (ctx : Context) (r : Reannotation) where
  /-- How the levels of values are related. -/
  levels : Weakening ctx
  /-- How what is known of variables is related. -/
  state : StateRel
  log : List Event → List Event → Prop
  /-- Where the first walk may be. -/
  visits : Part → Env → Prop
  enter : ∀ {p env q env'}, visits p env → Enters ctx p env q env' → visits q env'
  read : ∀ {id s s'}, state id s s' → levels.level s.level s'.level
  set : ∀ {id s s' l l'}, state id s s' → levels.level l l' →
    state id { s with level := l } { s' with level := l' }
  nil : log [] []
  append : ∀ {a a' b b'}, log a a' → log b b' → log (a ++ b) (a' ++ b')
  /-- Arguments and returned values are judged. -/
  position : ∀ {l l'} required span, levels.level l l' →
    log (positionLog ctx.options required l .strict span)
      (positionLog ctx.options required l' .strict span)
  narrowing : ∀ {l l'} declared span, levels.level l l' →
    log (narrowingLog ctx.options declared l span) (narrowingLog ctx.options declared l' span)
  /-- A variable that is assigned to is pinned on both walks or on none. -/
  pinned : ∀ {target value span env s s'}, visits (.expr (.assign target value span)) env →
    state target s s' → s'.pinned = s.pinned
  /-- A pinned variable judges what it is assigned. -/
  judged : ∀ {target value span env s s' p l l'}, visits (.expr (.assign target value span)) env →
    state target s s' → s.pinned = some p → levels.level l l' →
    log (judgementLog ctx.options p l .declaration value.span
        ++ redundancyLog ctx.options p l s.pinnedAt)
      (judgementLog ctx.options p l' .declaration value.span
        ++ redundancyLog ctx.options p l' s'.pinnedAt)
  /-- Any other variable takes the level. -/
  stored : ∀ {target value span env s s' l l'}, visits (.expr (.assign target value span)) env →
    state target s s' → s.pinned = none → levels.level l l' →
    levels.level (ctx.plainLevel l s.type) (ctx.plainLevel l' s'.type)
  /-- A pattern binds a variable to what has passed its test. -/
  bound : ∀ {v p env var l'}, visits (.pattern v p) env → p.var? = some var →
    levels.level (p.passed ctx.model v.level) l' →
    state var.id
        (.plain
          (PatternVar.levelFor (ctx.names.resolve var.annots).binding (p.passed ctx.model v.level))
          (p.variant?.bind ctx.model.typeName?))
        (.plain (PatternVar.levelFor (ctx.names.resolve (r var.id var.annots)).binding l')
          (p.variant?.bind ctx.model.typeName?)) ∧
      log (ctx.bindingLog var (p.passed ctx.model v.level))
        (ctx.bindingLog (var.reannotate r) l')
  /-- The annotations of a local are resolved. -/
  resolved : ∀ {decl init span env}, visits (.stmt (.declare decl init span)) env →
    log (Event.ofConflicts decl.id (ctx.names.resolve decl.annots).conflicts)
      (Event.ofConflicts decl.id (ctx.names.resolve (r decl.id decl.annots)).conflicts)
  /-- A local is declared without a value. -/
  declared : ∀ {decl span env}, visits (.stmt (.declare decl none span)) env →
    let own := ctx.names.resolve decl.annots
    let own' := ctx.names.resolve (r decl.id decl.annots)
    state decl.id
      (.ofBinding (ctx.model.declaredBinding own.binding decl.type) own.span decl.type)
      (.ofBinding (ctx.model.declaredBinding own'.binding decl.type) own'.span decl.type)
  /-- A local is initialised. -/
  initialised : ∀ {decl init span env l' env'},
    visits (.stmt (.declare decl (some init) span)) env →
    levels.level (eval ctx init env).value.level l' →
    Env.Rel state (eval ctx init env).env env' →
    let given := eval ctx init env
    let own := ctx.names.resolve decl.annots
    let own' := ctx.names.resolve (r decl.id decl.annots)
    state decl.id (ctx.initialState decl own init given.value.level given.env)
        (ctx.initialState decl own' init l' env') ∧
      log (ctx.initialLog decl own init given.value.level given.env)
        (ctx.initialLog decl own' init l' env')

namespace Lockstep

variable {ctx : Context} {r : Reannotation} {L : Lockstep ctx r}

/-- Walks in lockstep simulate each other. -/
def simulation (L : Lockstep ctx r) : Simulation where
  state := L.state
  log := L.log
  join hs ht := L.set hs (L.levels.meet (L.read hs) (L.read ht))
  nil := L.nil
  append := L.append

/-- The same variables in related states. -/
abbrev Envs (L : Lockstep ctx r) (env env' : Env) : Prop :=
  Env.Rel L.simulation.state env env'

/-! ### Steps -/

section Steps

variable {env env' : Env}

theorem readVariable_lockstep (h : L.Envs env env') (id : DeclId) :
    (readVariable id).Simulates L.simulation L.levels.level (readVariable id) env env' := by
  refine ⟨?_, h, L.nil⟩
  simp only [readVariable_apply, Env.level?]
  obtain ⟨hs, hs'⟩ | ⟨s, s', hs, hs', hstate⟩ := h.get?_cases id
  · rw [hs, hs']
    exact L.levels.ofLevel _
  · rw [hs, hs']
    exact L.read hstate

/-- Related values are judged with related logs. -/
theorem checkAgainst_lockstep (h : L.Envs env env') (required : Option Level) {l l' : ValueLevel}
    (hl : L.levels.level l l') (span : Span) :
    (checkAgainst ctx required l .strict span).Simulates L.simulation (fun _ _ => True)
      (checkAgainst ctx required l' .strict span) env env' := by
  refine ⟨trivial, ?_, ?_⟩ <;> simp only [checkAgainst_apply]
  · exact h
  · exact L.position required span hl

/-- Assigning related values leaves the environments related. -/
theorem assignVariable_lockstep {target : DeclId} {value : Expr} {span : Span} {start : Env}
    (hvisits : L.visits (.expr (.assign target value span)) start) (h : L.Envs env env')
    {l l' : ValueLevel} (hl : L.levels.level l l') :
    (assignVariable ctx target l value.span).Simulates L.simulation (fun _ _ => True)
      (assignVariable ctx target l' value.span) env env' := by
  refine ⟨trivial, ?_, ?_⟩ <;>
    simp only [assignVariable_apply, Context.assigned, assignmentLog] <;>
    obtain ⟨hs, hs'⟩ | ⟨s, s', hs, hs', hstate⟩ := h.get?_cases target <;>
    simp only [hs, hs']
  · exact h
  · have hpinned := L.pinned hvisits hstate
    cases hs : s.pinned with
    | some p => simpa only [hpinned, hs] using h
    | none =>
      simp only [hpinned, hs]
      exact h.assign fun ht => L.set ht (L.stored hvisits hstate hs hl)
  · exact L.nil
  · have hpinned := L.pinned hvisits hstate
    cases hs : s.pinned with
    | some p =>
      simp only [hpinned, hs]
      exact L.judged hvisits hstate hs hl
    | none =>
      simp only [hpinned, hs]
      exact L.nil

theorem narrowing_lockstep (h : L.Envs env env') (declared : Level) {l l' : ValueLevel}
    (hl : L.levels.level l l') (span : Span) :
    (Walk.emit (narrowingLog ctx.options declared l span)).Simulates L.simulation
      (fun _ _ => True) (Walk.emit (narrowingLog ctx.options declared l' span)) env env' :=
  .emit h (L.narrowing declared span hl)

/-- Binding a variable to related values leaves the environments related. -/
theorem bindVariable_lockstep {v : Evaluated} {p : Pattern} {var : PatternVar} {start : Env}
    (hvisits : L.visits (.pattern v p) start) (hvar : p.var? = some var) (h : L.Envs env env')
    {l' : ValueLevel} (hl : L.levels.level (p.passed ctx.model v.level) l') :
    (bindVariable ctx var (p.passed ctx.model v.level)
        (p.variant?.bind ctx.model.typeName?)).Simulates L.simulation (fun _ _ => True)
      (bindVariable ctx (var.reannotate r) l' (p.variant?.bind ctx.model.typeName?)) env env' := by
  obtain ⟨hstate, hlog⟩ := L.bound hvisits hvar hl
  refine ⟨trivial, ?_, ?_⟩ <;> simp only [bindVariable_apply]
  · exact h.declare hstate
  · exact hlog

end Steps

/-! ### Bodies -/

section Bodies

mutual

/-- **Patterns are matched in lockstep.** -/
theorem bindPattern_lockstep : ∀ (p : Pattern) {env env' : Env}, L.Envs env env' →
    ∀ {v v' : Evaluated}, L.levels.Value v v' → L.visits (.pattern v p) env →
    (bindPattern ctx v.level v.built p).Simulates L.simulation (fun _ _ => True)
      (bindPattern ctx v'.level v'.built (p.reannotate r)) env env'
  | .typeTest variant none span, _, _, h, v, v', hv, _ => by
    rw [Pattern.reannotate, Option.map_none, bindPattern, bindPattern]
    exact (narrowing_lockstep h _ hv.level span).bind fun _ h => .pure h trivial
  | .typeTest variant (some var) span, _, _, h, v, v', hv, hvisits => by
    rw [Pattern.reannotate, Option.map_some, bindPattern, bindPattern]
    exact (narrowing_lockstep h _ hv.level span).bind fun _ h =>
      bindVariable_lockstep hvisits rfl h (L.levels.narrow _ hv.level)
  | .variable var _, _, _, h, v, v', hv, hvisits => by
    rw [Pattern.reannotate, bindPattern, bindPattern]
    exact bindVariable_lockstep hvisits rfl h hv.level
  | .record variant components span, _, _, h, v, v', hv, hvisits => by
    rw [Pattern.reannotate, bindPattern, bindPattern]
    exact (narrowing_lockstep h _ hv.level span).bind fun _ h =>
      bindComponents_lockstep components h
        (L.levels.matchedLevel variant (L.levels.narrow _ hv.level) hv.built)
        (L.enter hvisits .components)
  | .wildcard _, _, _, h, v, v', _, _ => by
    rw [Pattern.reannotate, bindPattern, bindPattern]
    exact .pure h trivial

theorem bindComponents_lockstep : ∀ (ps : List Pattern) {env env' : Env}, L.Envs env env' →
    ∀ {level level' : Nat → ValueLevel}, (∀ i, L.levels.level (level i) (level' i)) →
    ∀ {index : Nat}, L.visits (.components level index ps) env →
    (bindComponents ctx level index ps).Simulates L.simulation (fun _ _ => True)
      (bindComponents ctx level' index (Pattern.reannotateList r ps)) env env'
  | [], _, _, h, level, level', _, index, _ => by
    rw [Pattern.reannotateList, bindComponents, bindComponents]
    exact .pure h trivial
  | p :: rest, _, _, h, level, level', hl, index, hvisits => by
    rw [Pattern.reannotateList, bindComponents, bindComponents]
    exact (bindPattern_lockstep p h (.ofLevel (hl index)) (L.enter hvisits .firstComponent)).bind
      fun _ h => bindComponents_lockstep rest h hl (L.enter hvisits .restComponents)

end

mutual

/-- Evaluating an expression and the same expression reannotated. -/
theorem eval_lockstep : ∀ (e : Expr) {env env' : Env}, L.Envs env env' →
    L.visits (.expr e) env →
    (eval ctx e).Simulates L.simulation L.levels.Value (eval ctx (e.reannotate r)) env env'
  | .null _, _, _, h, _ => by
    rw [Expr.reannotate, eval]
    exact .pure h (.ofLevel L.levels.null)
  | .literal _ _, _, _, h, _ => by
    rw [Expr.reannotate, eval]
    exact .pure h (.ofLevel (L.levels.ofLevel _))
  | .var decl _, _, _, h, _ => by
    rw [Expr.reannotate, eval]
    exact (readVariable_lockstep h decl).bind fun hl h => .pure h (.ofLevel hl)
  | .self _, _, _, h, _ => by
    rw [Expr.reannotate, eval]
    exact .pure h (.ofLevel L.levels.selfLevel)
  | .field receiver component _, _, _, h, hvisits => by
    rw [Expr.reannotate, eval, eval]
    refine (evalOption_lockstep receiver h ?_).bind fun ho h => .pure h (.ofLevel ?_)
    · rintro e rfl
      exact L.enter hvisits .fieldReceiver
    · exact L.levels.accessLevel component (L.levels.getD_level ho L.levels.selfLevel)
  | .call receiver method args _, _, _, h, hvisits => by
    rw [Expr.reannotate, eval, eval]
    refine (evalOption_lockstep receiver h ?_).bind fun ho h => ?_
    · rintro e rfl
      exact L.enter hvisits .callReceiver
    · exact (evalArgs_lockstep args h (L.enter hvisits .callArgs)).bind fun _ h =>
        .pure h (.ofLevel (L.levels.callResult method ho))
  | .construct variant args _, _, _, h, hvisits => by
    rw [Expr.reannotate, eval, eval]
    exact (evalArgs_lockstep args h (L.enter hvisits .constructArgs)).bind fun hargs h =>
      .pure h ⟨L.levels.ofLevel _, .some ⟨rfl, hargs⟩⟩
  | .singleton variant _, _, _, h, _ => by
    rw [Expr.reannotate, eval]
    exact .pure h (.ofLevel (L.levels.ofLevel _))
  | .paren inner _, _, _, h, hvisits => by
    rw [Expr.reannotate, eval, eval]
    exact eval_lockstep inner h (L.enter hvisits .paren)
  | .instanceOf operand pattern _, _, _, h, hvisits => by
    rw [Expr.reannotate, eval, eval]
    refine (eval_lockstep operand h (L.enter hvisits .operand)).bind fun hv h => ?_
    exact (bindPattern_lockstep pattern h hv (L.enter hvisits .test)).bind fun _ h =>
      .pure h (.ofLevel (L.levels.ofLevel _))
  | .conditional condition thenExpr elseExpr _, _, _, h, hvisits => by
    rw [Expr.reannotate, eval, eval]
    refine (eval_lockstep condition h (L.enter hvisits .condition)).bind fun _ h => ?_
    refine ((eval_lockstep thenExpr h (L.enter hvisits .thenExpr)).fork
      (eval_lockstep elseExpr h (L.enter hvisits .elseExpr))).bind fun hv h => ?_
    exact .pure h (.ofLevel (L.levels.meet hv.1.level hv.2.level))
  | .switch scrutinee arms _, _, _, h, hvisits => by
    rw [Expr.reannotate, eval, eval, Arm.any_isDefault_reannotate]
    refine (eval_lockstep scrutinee h (L.enter hvisits .scrutinee)).bind fun hv h => ?_
    have harms := runArms_lockstep arms h hv fun _ harm => L.enter hvisits (.arm harm)
    exact (Walk.Simulates.alternatives L.levels.meet h harms).bind fun ho h =>
      .pure h (.ofLevel (L.levels.getD_level ho (L.levels.ofLevel _)))
  | .assign target value _, _, _, h, hvisits => by
    rw [Expr.reannotate, eval, eval, Expr.span_reannotate]
    refine (eval_lockstep value h (L.enter hvisits .assignValue)).bind fun hv h => ?_
    exact (assignVariable_lockstep hvisits h hv.level).bind fun _ h => .pure h (.ofLevel hv.level)
  | .other _ children _, _, _, h, hvisits => by
    rw [Expr.reannotate, eval, eval]
    exact (evalArgs_lockstep children h (L.enter hvisits .children)).bind fun _ h =>
      .pure h (.ofLevel (L.levels.ofLevel _))

theorem evalOption_lockstep : ∀ (o : Option Expr) {env env' : Env}, L.Envs env env' →
    (∀ e, o = some e → L.visits (.expr e) env) →
    (evalOption ctx o).Simulates L.simulation (Option.Rel L.levels.level)
      (evalOption ctx (Expr.reannotateOption r o)) env env'
  | none, _, _, h, _ => by
    rw [Expr.reannotateOption, evalOption]
    exact .pure h .none
  | some e, _, _, h, hvisits => by
    rw [Expr.reannotateOption, evalOption, evalOption]
    exact (eval_lockstep e h (hvisits e rfl)).bind fun hv h => .pure h (.some hv.level)

theorem evalArgs_lockstep : ∀ (es : List Expr) {env env' : Env}, L.Envs env env' →
    ∀ {required : Nat → Option Level} {index : Nat}, L.visits (.args required index es) env →
    (evalArgs ctx required index es).Simulates L.simulation (List.Forall₂ L.levels.level)
      (evalArgs ctx required index (Expr.reannotateList r es)) env env'
  | [], _, _, h, required, index, _ => by
    rw [Expr.reannotateList, evalArgs]
    exact .pure h .nil
  | e :: rest, _, _, h, required, index, hvisits => by
    rw [Expr.reannotateList, evalArgs, evalArgs, Expr.span_reannotate]
    refine (eval_lockstep e h (L.enter hvisits .firstArg)).bind fun hv h => ?_
    refine (checkAgainst_lockstep h (required index) hv.level _).bind fun _ h => ?_
    refine (evalArgs_lockstep rest h ?_).bind fun hargs h => .pure h (.cons hv.level hargs)
    rw [checkAgainst_apply]
    exact L.enter hvisits .restArgs

/-- The arms are run in lockstep, one by one. -/
theorem runArms_lockstep : ∀ (arms : List Arm) {env env' : Env}, L.Envs env env' →
    ∀ {v v' : Evaluated}, L.levels.Value v v' → (∀ arm ∈ arms, L.visits (.arm v arm) env) →
    List.Forall₂
      (fun w w' => Walk.Simulates L.simulation (Option.Rel L.levels.level) w w' env env')
      (runArms ctx v arms) (runArms ctx v' (Arm.reannotateList r arms))
  | [], _, _, _, v, v', _, _ => by
    rw [Arm.reannotateList, runArms, runArms]
    exact .nil
  | .mk label body _ :: rest, _, _, h, v, v', hv, hvisits => by
    have hfirst := hvisits _ List.mem_cons_self
    rw [Arm.reannotateList, runArms, runArms]
    refine .cons (.inScope ?_)
      (runArms_lockstep rest h hv fun arm harm => hvisits arm (List.mem_cons_of_mem _ harm))
    exact (bindLabel_lockstep label h.push hv (L.enter hfirst .label)).bind fun _ h =>
      runBody_lockstep body h (L.enter hfirst .body)

theorem bindLabel_lockstep : ∀ (label : Label) {env env' : Env}, L.Envs env env' →
    ∀ {v v' : Evaluated}, L.levels.Value v v' → L.visits (.label v label) env →
    (bindLabel ctx v label).Simulates L.simulation (fun _ _ => True)
      (bindLabel ctx v' (label.reannotate r)) env env'
  | .pattern pattern, _, _, h, v, v', hv, hvisits => by
    rw [Label.reannotate, bindLabel, bindLabel]
    exact bindPattern_lockstep pattern h hv (L.enter hvisits .labelPattern)
  | .constant expr, _, _, h, v, v', _, hvisits => by
    rw [Label.reannotate, bindLabel, bindLabel]
    exact (eval_lockstep expr h (L.enter hvisits .labelConstant)).bind fun _ h => .pure h trivial
  | .default, _, _, h, v, v', _, _ => by
    rw [Label.reannotate, bindLabel, bindLabel]
    exact .pure h trivial

theorem runBody_lockstep : ∀ (body : ArmBody) {env env' : Env}, L.Envs env env' →
    L.visits (.body body) env →
    (runBody ctx body).Simulates L.simulation (Option.Rel L.levels.level)
      (runBody ctx (body.reannotate r)) env env'
  | .expr expr, _, _, h, hvisits => by
    rw [ArmBody.reannotate, runBody, runBody]
    exact (eval_lockstep expr h (L.enter hvisits .bodyExpr)).bind fun hv h =>
      .pure h (.some hv.level)
  | .block block, _, _, h, hvisits => by
    rw [ArmBody.reannotate, runBody, runBody]
    exact (execBlock_lockstep block h (L.enter hvisits .bodyBlock)).bind fun _ h => .pure h .none

/-- **Statements are executed in lockstep.** -/
theorem exec_lockstep : ∀ (s : Stmt) {env env' : Env}, L.Envs env env' →
    L.visits (.stmt s) env →
    (exec ctx s).Simulates L.simulation (fun _ _ => True) (exec ctx (s.reannotate r)) env env'
  | .declare decl none _, _, _, h, hvisits => by
    rw [Stmt.reannotate, Expr.reannotateOption, exec, exec]
    refine ⟨trivial, ?_, ?_⟩ <;>
      simp only [Walk.bind_apply, resolveVariable_apply, declareLocal_apply, List.append_nil]
    · exact h.declare (L.declared hvisits)
    · exact L.resolved hvisits
  | .declare decl (some init) _, _, _, h, hvisits => by
    rw [Stmt.reannotate, Expr.reannotateOption, exec, exec]
    have hinit := eval_lockstep init h (L.enter hvisits .init)
    obtain ⟨hstate, hlog⟩ := L.initialised hvisits hinit.value.level hinit.after
    refine ⟨trivial, ?_, ?_⟩ <;>
      simp only [Walk.bind_apply, resolveVariable_apply, initLocal_apply,
        Context.initialState_reannotate, Context.initialLog_reannotate]
    · exact hinit.after.declare hstate
    · exact L.append (L.resolved hvisits) (L.append hinit.log hlog)
  | .expr expr _, _, _, h, hvisits => by
    rw [Stmt.reannotate, exec, exec]
    exact (eval_lockstep expr h (L.enter hvisits .stmtExpr)).bind fun _ h => .pure h trivial
  | .ifElse condition thenBranch elseBranch _, _, _, h, hvisits => by
    rw [Stmt.reannotate, exec, exec]
    have hcondition := L.enter hvisits .ifCondition
    have hbranches := L.enter hvisits .ifBranches
    refine .inScope ((eval_lockstep condition h.push hcondition).bind fun _ h => ?_)
    refine ((execBlock_lockstep thenBranch h (L.enter hbranches .thenBranch)).fork
      (execOption_lockstep elseBranch h ?_)).bind fun _ h => .pure h trivial
    rintro block rfl
    exact L.enter hbranches .elseBranch
  | .loop condition body _, _, _, h, hvisits => by
    rw [Stmt.reannotate, exec, exec]
    have hcondition := L.enter hvisits .loopCondition
    have hbody := L.enter (L.enter hvisits .loopBody) .thenBranch
    refine .inScope ((eval_lockstep condition h.push hcondition).bind fun _ h => ?_)
    have hskip : (pure () : Walk Unit).Simulates L.simulation (fun _ _ => True) (pure ()) _ _ :=
      .pure h trivial
    exact ((execBlock_lockstep body h hbody).fork hskip).bind fun _ h => .pure h trivial
  | .switch scrutinee arms _, _, _, h, hvisits => by
    rw [Stmt.reannotate, exec, exec, Arm.any_isDefault_reannotate]
    refine (eval_lockstep scrutinee h (L.enter hvisits .stmtScrutinee)).bind fun hv h => ?_
    have harms := runArms_lockstep arms h hv fun _ harm => L.enter hvisits (.stmtArm harm)
    exact (Walk.Simulates.alternatives L.levels.meet h harms).bind fun _ h => .pure h trivial
  | .ret none _, _, _, h, _ => by
    rw [Stmt.reannotate, Expr.reannotateOption, exec]
    exact .pure h trivial
  | .ret (some value) _, _, _, h, hvisits => by
    rw [Stmt.reannotate, Expr.reannotateOption, exec, exec, Expr.span_reannotate]
    exact (eval_lockstep value h (L.enter hvisits .returned)).bind fun hv h =>
      checkAgainst_lockstep h ctx.returns hv.level _
  | .block block _, _, _, h, hvisits => by
    rw [Stmt.reannotate, exec, exec]
    exact execBlock_lockstep block h (L.enter hvisits .stmtBlock)

/-- **The walks through statements and through the same statements reannotated stay in
lockstep.** -/
theorem execAll_lockstep : ∀ (stmts : List Stmt) {env env' : Env}, L.Envs env env' →
    L.visits (.stmts stmts) env →
    (execAll ctx stmts).Simulates L.simulation (fun _ _ => True)
      (execAll ctx (Stmt.reannotateList r stmts)) env env'
  | [], _, _, h, _ => by
    rw [Stmt.reannotateList, execAll]
    exact .pure h trivial
  | s :: rest, _, _, h, hvisits => by
    rw [Stmt.reannotateList, execAll, execAll]
    exact (exec_lockstep s h (L.enter hvisits .firstStmt)).bind fun _ h =>
      execAll_lockstep rest h (L.enter hvisits .restStmts)

theorem execBlock_lockstep : ∀ (block : Block) {env env' : Env}, L.Envs env env' →
    L.visits (.block block) env →
    (execBlock ctx block).Simulates L.simulation (fun _ _ => True)
      (execBlock ctx (block.reannotate r)) env env'
  | .mk stmts _, _, _, h, hvisits => by
    rw [Block.reannotate, execBlock, execBlock]
    exact (execAll_lockstep stmts h.push (L.enter hvisits .blockStmts)).inScope

theorem execOption_lockstep : ∀ (o : Option Block) {env env' : Env}, L.Envs env env' →
    (∀ block, o = some block → L.visits (.block block) env) →
    (execOption ctx o).Simulates L.simulation (fun _ _ => True)
      (execOption ctx (Block.reannotateOption r o)) env env'
  | none, _, _, h, _ => by
    rw [Block.reannotateOption, execOption]
    exact .pure h trivial
  | some block, _, _, h, hvisits => by
    rw [Block.reannotateOption, execOption, execOption]
    exact execBlock_lockstep block h (hvisits block rfl)

end

end Bodies

/-! ### One walk -/

/-- What the lockstep says of an environment of the first walk alone. -/
def Holds (L : Lockstep ctx r) (env : Env) : Prop :=
  ∃ env', L.Envs env env'

section Points

variable {p q : Part} {env env' : Env} (hrefl : ∀ l, L.levels.level l l)
include hrefl

theorem value_refl (v : Evaluated) : L.levels.Value v v := by
  refine ⟨hrefl v.level, ?_⟩
  cases v.built with
  | none => exact .none
  | some b => exact .some ⟨rfl, List.forall₂_same.2 fun l _ => hrefl l⟩

/-- What holds where a part starts holds where the parts that it enters start. -/
theorem Holds.enter (h : L.Holds env) (hvisits : L.visits p env) (hstep : Enters ctx p env q env') :
    L.Holds env' := by
  obtain ⟨_, h⟩ := h
  have hpush := h.push
  cases hstep with
  | fieldReceiver | callReceiver | constructArgs | paren | operand | condition | scrutinee
  | assignValue | children | firstArg | components | firstComponent | labelPattern | labelConstant
  | bodyExpr | bodyBlock | init | stmtExpr | stmtScrutinee | returned | stmtBlock | thenBranch
  | elseBranch | firstStmt => exact ⟨_, h⟩
  | label | ifCondition | loopCondition | blockStmts => exact ⟨_, hpush⟩
  | callArgs =>
    refine ⟨_, (evalOption_lockstep _ h ?_).after⟩
    rintro e rfl
    exact L.enter hvisits .callReceiver
  | test => exact ⟨_, (eval_lockstep _ h (L.enter hvisits .operand)).after⟩
  | thenExpr | elseExpr => exact ⟨_, (eval_lockstep _ h (L.enter hvisits .condition)).after⟩
  | arm => exact ⟨_, (eval_lockstep _ h (L.enter hvisits .scrutinee)).after⟩
  | stmtArm => exact ⟨_, (eval_lockstep _ h (L.enter hvisits .stmtScrutinee)).after⟩
  | restArgs => exact ⟨_, (eval_lockstep _ h (L.enter hvisits .firstArg)).after⟩
  | restComponents =>
    have hfirst := L.enter hvisits .firstComponent
    exact ⟨_, (bindPattern_lockstep _ h (value_refl hrefl _) hfirst).after⟩
  | body =>
    have hlabel := L.enter hvisits .label
    exact ⟨_, (bindLabel_lockstep _ hpush (value_refl hrefl _) hlabel).after⟩
  | ifBranches => exact ⟨_, (eval_lockstep _ hpush (L.enter hvisits .ifCondition)).after⟩
  | loopBody => exact ⟨_, (eval_lockstep _ hpush (L.enter hvisits .loopCondition)).after⟩
  | restStmts => exact ⟨_, (exec_lockstep _ h (L.enter hvisits .firstStmt)).after⟩

/-- What holds where a part starts holds where it ends. -/
theorem Holds.run (h : L.Holds env) (hvisits : L.visits p env) :
    L.Holds (p.run ctx env).env := by
  obtain ⟨_, h⟩ := h
  cases p with
  | expr e => exact ⟨_, (eval_lockstep e h hvisits).after⟩
  | args required index es => exact ⟨_, (evalArgs_lockstep es h hvisits).after⟩
  | pattern v p => exact ⟨_, (bindPattern_lockstep p h (value_refl hrefl v) hvisits).after⟩
  | components level index ps =>
    exact ⟨_, (bindComponents_lockstep ps h (fun i => hrefl (level i)) hvisits).after⟩
  | arm v a =>
    obtain ⟨label, body, span⟩ := a
    have hlabel := bindLabel_lockstep label h.push (value_refl hrefl v) (L.enter hvisits .label)
    exact ⟨_, (runBody_lockstep body hlabel.after (L.enter hvisits .body)).after.pop⟩
  | label v l => exact ⟨_, (bindLabel_lockstep l h (value_refl hrefl v) hvisits).after⟩
  | body b => exact ⟨_, (runBody_lockstep b h hvisits).after⟩
  | stmt s => exact ⟨_, (exec_lockstep s h hvisits).after⟩
  | branches thenBranch elseBranch =>
    refine ⟨_, ((execBlock_lockstep thenBranch h (L.enter hvisits .thenBranch)).fork
      (execOption_lockstep elseBranch h ?_)).after⟩
    rintro block rfl
    exact L.enter hvisits .elseBranch
  | block b => exact ⟨_, (execBlock_lockstep b h hvisits).after⟩
  | stmts ss => exact ⟨_, (execAll_lockstep ss h hvisits).after⟩

end Points

end Lockstep

end Closedness
