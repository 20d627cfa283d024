import Closedness.Proofs.Merging
import Closedness.Proofs.Positions

/-!
# Null values

The level of null is decided by the text of an expression alone: an expression has it just if it is
null in all the ways in which control can get to its value (`Expr.isNullShaped`), whatever is known
of variables. The reason is that null is lost wherever a value is stored or read from: a variable is
never known to be null (`Reached.states`), and neither is a member, also of null itself. This holds
of units that are not well resolved, too.

Nothing is ever found about null where it stands (`null_is_syntactic`).
-/

namespace Closedness

/-! ## Null by its shape -/

/-- The arm gives a value: its body is an expression. -/
def Arm.isExpr : Arm → Bool
  | .mk _ (.expr _) _ => true
  | .mk _ (.block _) _ => false

mutual

/-- Whichever way the value of the expression comes about, it is written as null. -/
def Expr.isNullShaped : Expr → Bool
  | .null _ => true
  | .paren inner _ => inner.isNullShaped
  | .conditional _ thenExpr elseExpr _ => thenExpr.isNullShaped && elseExpr.isNullShaped
  | .switch _ arms _ => arms.any Arm.isExpr && Arm.allNullShaped arms
  | .assign _ value _ => value.isNullShaped
  | .literal _ _ | .var _ _ | .self _ | .field _ _ _ | .call _ _ _ _ | .construct _ _ _
  | .singleton _ _ | .instanceOf _ _ _ | .other _ _ _ => false

/-- The arms that are expressions all are null. -/
def Arm.allNullShaped : List Arm → Bool
  | [] => true
  | .mk _ (.expr e) _ :: rest => e.isNullShaped && Arm.allNullShaped rest
  | .mk _ (.block _) _ :: rest => Arm.allNullShaped rest

end

/-! ## Levels that are not null -/

namespace ValueLevel

theorem Settled.ne_null {l : ValueLevel} (h : l.Settled) : l ≠ .null := by
  rintro rfl
  exact h

/-- A member that is read through a receiver is not taken for null. -/
theorem inheritedFrom_ne_null (l : ValueLevel) : l.inheritedFrom ≠ .null := by
  rcases l with _ | _ | ⟨_ | _ | _⟩ | _ <;> rintro ⟨⟩

/-- Paths join in null just when all of them give null. -/
theorem foldl_meet_eq_null (levels : List ValueLevel) (first : ValueLevel) :
    levels.foldl meet first = .null ↔ first = .null ∧ ∀ l ∈ levels, l = .null := by
  induction levels generalizing first with
  | nil => simp
  | cons l rest ih => rw [List.foldl_cons, ih, meet_eq_null, List.forall_mem_cons, and_assoc]

/-- Levels meet in null just if there are some and all are null. -/
theorem meetAll_eq_null (levels : List ValueLevel) :
    meetAll levels = .null ↔ levels ≠ [] ∧ ∀ l ∈ levels, l = .null := by
  cases levels with
  | nil => exact ⟨nofun, fun h => absurd rfl h.1⟩
  | cons first rest =>
    rw [meetAll, foldl_meet_eq_null, List.forall_mem_cons]
    exact ⟨fun h => ⟨nofun, h⟩, fun h => h.2⟩

end ValueLevel

namespace Model

/-- Reading a member never gives null. -/
theorem memberLevel_ne_null (b : Binding) (receiver : Option ValueLevel) :
    memberLevel b receiver ≠ .null := by
  match b, receiver with
  | .noInherit, _ => rintro ⟨⟩
  | .level .inherit, some l => exact l.inheritedFrom_ne_null
  | .level .inherit, none => rintro ⟨⟩
  | .level .bound, _ => rintro ⟨⟩
  | .level .closed, _ => rintro ⟨⟩

/-- A call never gives null, also if it is made through null. -/
theorem callResult_ne_null (model : Model) (callee : DeclId) (receiver self : Option ValueLevel) :
    model.callResult callee receiver self ≠ .null := by
  unfold callResult callLevel
  split
  · exact memberLevel_ne_null _ _
  · rintro ⟨⟩
  · split
    · exact memberLevel_ne_null _ _
    · split
      · rintro ⟨⟩
      · exact memberLevel_ne_null _ _

end Model

/-! ## Variables that are not null -/

section States

variable {D : Discipline} {ctx : Context} {p q : Part} {env env' : Env}

/-- Where everything is allowed, variables stay in allowed states, also if the declarations to come
are not new. -/
theorem Enters.states (hctx : D.Within ctx) (hall : ∀ ds, D.Allows ctx.names ds)
    (h : Enters ctx p env q env') (hr : p.Receives D) (henv : env.All D.State) :
    env'.All D.State ∧ q.Receives D := by
  cases h with
  | fieldReceiver | callReceiver | paren | operand | condition | scrutinee | assignValue | firstArg
  | labelConstant | bodyExpr | bodyBlock | init | stmtExpr | stmtScrutinee | returned | stmtBlock
  | thenBranch | elseBranch | firstStmt => exact ⟨henv, trivial⟩
  | ifCondition | loopCondition | blockStmts => exact ⟨henv.push, trivial⟩
  | callArgs =>
    exact ⟨(evalOption_keeps hctx _ (hall _) _ henv).2.1, fun _ _ => hctx.argRequirement?⟩
  | constructArgs => exact ⟨henv, fun _ _ => hctx.componentRequirement?⟩
  | test | arm | stmtArm =>
    obtain ⟨hvalue, henv', -⟩ := eval_keeps hctx _ (hall _) _ henv
    exact ⟨henv', hvalue⟩
  | thenExpr | elseExpr => exact ⟨(eval_keeps hctx _ (hall _) _ henv).2.1, trivial⟩
  | ifBranches | loopBody => exact ⟨(eval_keeps hctx _ (hall _) _ henv.push).2.1, trivial⟩
  | children => exact ⟨henv, fun _ _ h => nomatch h⟩
  | restArgs => exact ⟨(eval_keeps hctx _ (hall _) _ henv).2.1, hr⟩
  | components => exact ⟨henv, hctx.matchedLevel _ (hctx.narrow _ hr.level) hr.built⟩
  | firstComponent => exact ⟨henv, .ofLevel (hr _)⟩
  | restComponents =>
    exact ⟨(bindPattern_keeps hctx _ (hall _) (hr _) Discipline.not_built _ henv).2.1, hr⟩
  | label => exact ⟨henv.push, hr⟩
  | body => exact ⟨(bindLabel_keeps hctx _ (hall _) hr _ henv.push).2.1, trivial⟩
  | labelPattern => exact ⟨henv, hr⟩
  | restStmts => exact ⟨(exec_keeps hctx _ (hall _) _ henv).2.1, trivial⟩

end States

section Settled

variable (config : Config) (u : CompilationUnit) (m : Method)

/-- The tables of any unit stay within that discipline. -/
theorem Config.context_within : Discipline.receivers.Within (config.context u m) :=
  Discipline.within_context (Discipline.receivers_allows config.names u.declarations) m

variable {config u m} {p : Part} {env : Env}

/-- Wherever the walk through a method gets to, variables have settled levels. -/
theorem Reached.states (h : Reached (config.context u m) m p env) :
    env.All Discipline.receivers.State ∧ p.Receives Discipline.receivers := by
  induction h with
  | start hbody => exact ⟨Discipline.all_ofParams (config.context_within u m) m.params, trivial⟩
  | enter _ hstep ih =>
    exact hstep.states (config.context_within u m) (Discipline.receivers_allows _) ih.2 ih.1

/-- The same at the end of a part that is reached. -/
theorem Reached.states_run (h : Reached (config.context u m) m p env) :
    (p.run (config.context u m) env).env.All Discipline.receivers.State :=
  (p.run_keeps (config.context_within u m) h.states.2 (Discipline.receivers_allows _ _) env
    h.states.1).2.1

end Settled

/-! ## Null by its level -/

section Eval

variable {ctx : Context} (hctx : Discipline.receivers.Within ctx)
  (hself : ∀ {l}, ctx.self = some l → l.Settled)
include hctx hself

-- the linter does not look into the other theorems of a mutual block
set_option linter.unusedSectionVars false in
mutual

/-- An expression has the level of null just if it is null by its shape. -/
theorem level_eval_eq_null : ∀ (e : Expr) {env : Env}, env.All Discipline.receivers.State →
    ((eval ctx e env).value.level = .null ↔ e.isNullShaped = true)
  | .null _, _, _ => by rw [eval, Expr.isNullShaped]; exact ⟨fun _ => rfl, fun _ => rfl⟩
  | .literal _ _, _, _ | .construct _ _ _, _, _ | .singleton _ _, _, _ | .instanceOf _ _ _, _, _
  | .other _ _ _, _, _ => by
    rw [eval, Expr.isNullShaped]
    exact iff_of_false (by rintro ⟨⟩) Bool.false_ne_true
  | .var decl _, env, henv => by
    rw [eval, Expr.isNullShaped]
    simp only [Walk.bind_apply, readVariable_apply, Walk.pure_apply, Env.level?]
    refine ⟨fun h => ?_, nofun⟩
    cases hget : env.get? decl with
    | none => simp [hget] at h
    | some s =>
      rw [hget] at h
      exact absurd h (henv.of_get? hget).settled.ne_null
  | .self _, _, _ => by
    rw [eval, Expr.isNullShaped]
    refine ⟨fun h => ?_, nofun⟩
    change ctx.selfLevel = .null at h
    unfold Context.selfLevel at h
    cases hlevel : ctx.self with
    | none => simp [hlevel] at h
    | some l =>
      rw [hlevel] at h
      exact absurd h (hself hlevel).ne_null
  | .field receiver component _, _, _ => by
    rw [eval, Expr.isNullShaped]
    exact iff_of_false (Model.memberLevel_ne_null _ _) Bool.false_ne_true
  | .call receiver method args _, _, _ => by
    rw [eval, Expr.isNullShaped]
    exact iff_of_false (Model.callResult_ne_null _ _ _ _) Bool.false_ne_true
  | .paren inner _, _, henv => by
    rw [eval, Expr.isNullShaped]
    exact level_eval_eq_null inner henv
  | .conditional condition thenExpr elseExpr _, env, henv => by
    have hcondition := (eval_keeps hctx condition (Discipline.receivers_allows _ _) env henv).2.1
    rw [Expr.isNullShaped, Bool.and_eq_true, ← level_eval_eq_null thenExpr hcondition,
      ← level_eval_eq_null elseExpr hcondition, eval]
    exact ValueLevel.meet_eq_null
  | .switch scrutinee arms span, env, henv => by
    obtain ⟨hvalue, hscrutinee, -⟩ :=
      eval_keeps hctx scrutinee (Discipline.receivers_allows _ _) env henv
    obtain ⟨hsome, hall⟩ := levels_arms_null arms hvalue hscrutinee
    rw [level_eval_switch, ValueLevel.meetAll_eq_null, hsome, hall, Expr.isNullShaped,
      Bool.and_eq_true]
  | .assign target value _, _, henv => by
    rw [Expr.isNullShaped, ← level_eval_eq_null value henv, eval]
    rfl

/-- The arms of a switch have levels if some are expressions, and these are null if all of the
expressions are. -/
theorem levels_arms_null : ∀ (arms : List Arm) {v : Evaluated} {env : Env},
    Discipline.receivers.Value v → env.All Discipline.receivers.State →
    (Arm.levels ctx v env arms ≠ [] ↔ arms.any Arm.isExpr = true) ∧
      ((∀ l ∈ Arm.levels ctx v env arms, l = .null) ↔ Arm.allNullShaped arms = true)
  | [], _, _, _, _ => by simp [Arm.levels, Arm.allNullShaped]
  | .mk label (.expr e) span :: rest, v, env, hv, henv => by
    obtain ⟨-, hrest⟩ := levels_arms_null rest hv henv
    have hlabel := (bindLabel_keeps hctx label (Discipline.receivers_allows _ _) hv _ henv.push).2.1
    rw [Arm.levels_expr, Arm.allNullShaped, Bool.and_eq_true, ← level_eval_eq_null e hlabel,
      ← hrest, List.forall_mem_cons]
    exact ⟨⟨fun _ => rfl, fun _ => nofun⟩, Iff.rfl⟩
  | .mk label (.block block) span :: rest, v, env, hv, henv => by
    rw [Arm.levels_block, List.any_cons, Arm.allNullShaped]
    exact levels_arms_null rest hv henv

end

end Eval

/-! ## Null where it stands -/

/-- Nothing is found about null. -/
theorem diagnostics_positionLog_null (options : Options) (required : Option Level) (site : Site)
    (span : Span) : Event.diagnostics (positionLog options required .null site span) = [] := by
  rcases required with _ | _ | _ | _ <;> rfl

/-- **Null is decided by the shape of an expression, and nothing is found about it.** Wherever the
walk through a method gets to, an expression has the level of null just if it is null by its shape;
then nothing is found about it as an argument, returned, as an initialiser or assigned. -/
theorem null_is_syntactic (config : Config) (u : CompilationUnit) (m : Method) {p : Part}
    {start env : Env} (hp : Reached (config.context u m) m p start)
    (henv : env = start ∨ env = (p.run (config.context u m) start).env) (e : Expr) :
    ((eval (config.context u m) e env).value.level = .null ↔ e.isNullShaped = true) ∧
      (e.isNullShaped = true → FindsAt (config.context u m) env e fun _ => []) := by
  have hstates : env.All Discipline.receivers.State := by
    obtain rfl | rfl := henv
    · exact hp.states.1
    · exact hp.states_run
  have hnull := level_eval_eq_null (config.context_within u m) (config.context_self_settled u m) e
    hstates
  refine ⟨hnull, fun hshape => ?_⟩
  have hlevel := hnull.2 hshape
  refine .of_judged ?_ fun required site => ?_
  · rw [hlevel]
    rfl
  · rw [hlevel]
    exact diagnostics_positionLog_null ..

/-! ## A method that returns null -/

namespace Nothing

/-- `c ? (null) : p = null` -/
def value : Expr :=
  .conditional (.var ⟨2⟩ (.spot 3)) (.paren (.null (.spot 4)) (.spot 4))
    (.assign ⟨1⟩ (.null (.spot 5)) (.spot 5)) (.spot 3)

/-- `@Closed Leaf m(@Bound Leaf p, boolean c) { return c ? (null) : p = null; }` -/
def method : Method :=
  let param (id : UInt32) (type : String) (annots : List Annot) : Param :=
    { id := ⟨id⟩, name := "p", type, annots, isVarargs := false, span := .spot 1 }
  { id := ⟨0⟩
    name := "m"
    isStatic := true
    annots := [{ name := "Closed", span := .spot 0 }]
    returnType := some "Leaf"
    params := [param 1 "Leaf" [{ name := "Bound", span := .spot 1 }], param 2 "boolean" []]
    body := some (.mk [.ret (some value) (.spot 2)] (.spot 2))
    span := .spot 0 }

def unit : CompilationUnit :=
  { name := "nothing", types := [], methods := [method] }

/-- The context in which the method is walked. -/
def context : Context :=
  ({} : Config).context unit method

def start : Env :=
  Env.ofParams context.model method.params

end Nothing

/-- The method has to return a closed value and assigns to a bound parameter on the way; nothing is
found. A member that is read through the same value is not null. -/
theorem null_is_syntactic_nothing :
    let member : Expr := .field (some Nothing.value) ⟨7⟩ (.spot 3)
    Nothing.context.returns = some .closed ∧
      (Nothing.start.get? ⟨1⟩).bind VarState.pinned = some .bound ∧
      Reached Nothing.context Nothing.method (.stmt (.ret (some Nothing.value) (.spot 2)))
        Nothing.start ∧
      (eval Nothing.context Nothing.value Nothing.start).value.level = .null ∧
      Event.diagnostics (exec Nothing.context (.ret (some Nothing.value) (.spot 2))
        Nothing.start).log = [] ∧
      (eval Nothing.context member Nothing.start).value.level ≠ .null := by
  have hreached : Reached Nothing.context Nothing.method
      (.stmt (.ret (some Nothing.value) (.spot 2))) Nothing.start :=
    (Reached.start rfl).enter .firstStmt
  obtain ⟨hvalue, hfinds⟩ :=
    null_is_syntactic {} Nothing.unit Nothing.method hreached (Or.inl rfl) Nothing.value
  have hmember := (null_is_syntactic {} Nothing.unit Nothing.method hreached (Or.inl rfl)
    (.field (some Nothing.value) ⟨7⟩ (.spot 3))).1
  refine ⟨by decide, by decide, hreached, hvalue.2 rfl, ?_, mt hmember.1 nofun⟩
  exact ((hfinds rfl).returned (.spot 2)).trans (by decide)

end Closedness
