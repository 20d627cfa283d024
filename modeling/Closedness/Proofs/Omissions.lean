import Closedness.Proofs.Options
import Closedness.Proofs.Redundancy

/-!
# Removing redundant annotations of pattern variables

The annotation of a pattern variable is found redundant if it asks for the level that the matched
value has already. A pattern variable takes just that level from the value, if it has no annotation,
and is never pinned. So without the annotation the walk knows the same of every variable at every
point, and logs the same except that the hint is missing.

The hint is missing once, since the variable is bound once. `Event.Omits e n` counts how often an
event is left out of a log, and walking a body leaves out the hint as often as the body declares the
variable (`Omission.execAll_omits`). Sorting a list with one element less gives the sorted list
without that element (`mergeSort_append_cons`), so the report is the same but for the hint
(`redundant_hint_followed`).
-/

namespace Closedness

/-! ## Logs that leave an event out -/

namespace Event

/-- The second log is the first with the event left out a number of times. -/
inductive Omits (e : Event) : Nat → List Event → List Event → Prop
  | nil : Omits e 0 [] []
  | keep {n log log'} (other : Event) (h : Omits e n log log') :
    Omits e n (other :: log) (other :: log')
  | leave {n log log'} (h : Omits e n log log') : Omits e (n + 1) (e :: log) log'

namespace Omits

variable {e : Event} {n k : Nat} {a a' b b' log log' : List Event}

theorem refl (e : Event) : ∀ log : List Event, Omits e 0 log log
  | [] => .nil
  | other :: rest => .keep other (refl e rest)

theorem append (ha : Omits e n a a') (hb : Omits e k b b') :
    Omits e (n + k) (a ++ b) (a' ++ b') := by
  induction ha with
  | nil => rwa [Nat.zero_add]
  | keep other _ ih => exact .keep other ih
  | leave _ ih =>
    rw [Nat.add_right_comm]
    exact .leave ih

theorem eq_of_zero (h : Omits e 0 log log') : log' = log := by
  generalize hzero : 0 = n at h
  induction h with
  | nil => rfl
  | keep other _ ih => rw [ih hzero]
  | leave _ _ => cases hzero

/-- An event that is left out once stands somewhere in the first log. -/
theorem split (h : Omits e 1 log log') :
    ∃ before after, log = before ++ e :: after ∧ log' = before ++ after := by
  generalize hone : 1 = n at h
  induction h with
  | nil => cases hone
  | keep other _ ih =>
    obtain ⟨before, after, rfl, rfl⟩ := ih hone
    exact ⟨other :: before, after, rfl, rfl⟩
  | @leave n log log' h _ =>
    obtain rfl : n = 0 := (Nat.succ.inj hone).symm
    exact ⟨[], log, rfl, h.eq_of_zero⟩

end Omits

end Event

/-! ## Walks that leave an event out -/

namespace Walk

variable {α β : Type} {e : Event} {n k : Nat} {env : Env}

/-- From the environment the second walk leads where the first does, and leaves the event out of its
log a number of times. -/
structure Omits (e : Event) (n : Nat) (w w' : Walk α) (env : Env) : Prop where
  value : (w' env).value = (w env).value
  after : (w' env).env = (w env).env
  log : Event.Omits e n (w env).log (w' env).log

namespace Omits

theorem refl (w : Walk α) (env : Env) : Omits e 0 w w env :=
  ⟨rfl, rfl, .refl e _⟩

theorem cast {w w' : Walk α} (h : Omits e n w w' env) (hn : k = n) : Omits e k w w' env :=
  hn ▸ h

/-- Walks one after the other leave the event out as often as each of them does. -/
theorem bind {first first' : Walk α} {next next' : α → Walk β} (hfirst : Omits e n first first' env)
    (hnext : Omits e k (next (first env).value) (next' (first env).value) (first env).env) :
    Omits e (n + k) (first >>= next) (first' >>= next') env := by
  obtain ⟨hvalue, hafter, hlog⟩ := hnext
  refine ⟨?_, ?_, ?_⟩ <;> simp only [bind_apply, hfirst.value, hfirst.after]
  · exact hvalue
  · exact hafter
  · exact hfirst.log.append hlog

/-- What comes after is the same on both walks. -/
theorem bind_same {first first' : Walk α} (hfirst : Omits e n first first' env)
    (next : α → Walk β) : Omits e n (first >>= next) (first' >>= next) env :=
  hfirst.bind (.refl _ _)

/-- What comes before is the same on both walks. -/
theorem same_bind {first : Walk α} {next next' : α → Walk β}
    (hnext : Omits e n (next (first env).value) (next' (first env).value) (first env).env) :
    Omits e n (first >>= next) (first >>= next') env :=
  ((Omits.refl first env).bind hnext).cast (Nat.zero_add n).symm

theorem inScope {body body' : Walk α} (h : Omits e n body body' env.push) :
    Omits e n body.inScope body'.inScope env :=
  ⟨h.value, congrArg Env.pop h.after, h.log⟩

theorem fork {first first' : Walk α} {second second' : Walk β} (hfirst : Omits e n first first' env)
    (hsecond : Omits e k second second' env) :
    Omits e (n + k) (first.fork second) (first'.fork second') env := by
  refine ⟨?_, ?_, hfirst.log.append hsecond.log⟩ <;>
    simp only [fork_apply, hfirst.value, hfirst.after, hsecond.value, hsecond.after]

end Omits

/-- The same of walks that all start from the environment, one by one. -/
structure OmitsAll (e : Event) (n : Nat) (ws ws' : List (Walk α)) (env : Env) : Prop where
  values : ws'.map (fun w => (w env).value) = ws.map fun w => (w env).value
  afters : ws'.map (fun w => (w env).env) = ws.map fun w => (w env).env
  log : Event.Omits e n (ws.flatMap fun w => (w env).log) (ws'.flatMap fun w => (w env).log)

namespace OmitsAll

theorem nil : OmitsAll e 0 ([] : List (Walk α)) [] env :=
  ⟨rfl, rfl, .nil⟩

theorem cons {w w' : Walk α} {ws ws' : List (Walk α)} (h : Omits e n w w' env)
    (hrest : OmitsAll e k ws ws' env) : OmitsAll e (n + k) (w :: ws) (w' :: ws') env where
  values := by rw [List.map_cons, List.map_cons, h.value, hrest.values]
  afters := by rw [List.map_cons, List.map_cons, h.after, hrest.afters]
  log := by
    rw [List.flatMap_cons, List.flatMap_cons]
    exact h.log.append hrest.log

/-- The arms of a switch leave the event out as often as they do one by one. -/
theorem alternatives {arms arms' : List (Walk (Option ValueLevel))}
    (h : OmitsAll e n arms arms' env) (exhaustive : Bool) :
    Omits e n (Walk.alternatives exhaustive arms) (Walk.alternatives exhaustive arms') env := by
  refine ⟨?_, ?_, ?_⟩ <;> simp only [Walk.alternatives, List.map_map, List.flatMap_map]
  · exact congrArg meetAll h.values
  · exact congrArg (joinAll exhaustive env) h.afters
  · exact h.log

end OmitsAll

end Walk

/-! ## Bodies -/

/-- How often an id is declared. -/
def Declaration.times (id : DeclId) (ds : List Declaration) : Nat :=
  (ids ds).count id

/-- A variable is declared in two lists as often as in each of them. -/
theorem Declaration.times_append (id : DeclId) (a b : List Declaration) :
    times id (a ++ b) = times id a + times id b := by
  rw [times, ids_append, List.count_append]
  rfl

theorem Declaration.times_cons_of_ne {id : DeclId} {d : Declaration} (h : d.id ≠ id)
    (ds : List Declaration) : times id (d :: ds) = times id ds :=
  List.count_cons_of_ne h

/-- The annotations of a local and of its initialiser count only as what they resolve to. -/
theorem initLocal_reannotate (r : Reannotation) (ctx : Context) (decl : LocalDecl)
    (resolution : Resolution) (init : Expr) (value : ValueLevel) :
    initLocal ctx (decl.reannotate r) resolution (init.reannotate r) value =
      initLocal ctx decl resolution init value := by
  funext env
  rw [initLocal_apply, initLocal_apply, Context.initialState_reannotate,
    Context.initialLog_reannotate]
  rfl

/-- Other annotations for one pattern variable of a method that change nothing but that the event is
not logged where the variable is bound. -/
structure Omission (ctx : Context) (r : Reannotation) (m : Method) (id : DeclId) (e : Event) :
    Prop where
  bound : ∀ {v p start var}, Reached ctx m (.pattern v p) start → p.var? = some var →
    ∀ type env, (bindVariable ctx var (p.passed ctx.model v.level) type).Omits e
      (Declaration.times id [var.declaration])
      (bindVariable ctx (var.reannotate r) (p.passed ctx.model v.level) type) env
  declared : ∀ {decl init span start}, Reached ctx m (.stmt (.declare decl init span)) start →
    decl.id ≠ id ∧ r decl.id decl.annots = decl.annots

namespace Omission

variable {ctx : Context} {r : Reannotation} {m : Method} {id : DeclId} {e : Event}
  (h : Omission ctx r m id e)
include h

-- the linter does not look into the other theorems of a mutual block
set_option linter.unusedSectionVars false in
mutual

/-- Matching leaves the event out once for each time the pattern declares the variable. -/
theorem bindPattern_omits : ∀ (p : Pattern) {v : Evaluated} {env : Env},
    Reached ctx m (.pattern v p) env →
    (bindPattern ctx v.level v.built p).Omits e (Declaration.times id p.declarations)
      (bindPattern ctx v.level v.built (p.reannotate r)) env
  | .typeTest variant none span, v, env, _ => by
    rw [Pattern.reannotate, Option.map_none, bindPattern]
    exact .refl _ _
  | .typeTest variant (some var) span, v, env, hp => by
    rw [Pattern.reannotate, Option.map_some, bindPattern, bindPattern]
    exact .same_bind (h.bound hp rfl _ _)
  | .variable var span, v, env, hp => by
    rw [Pattern.reannotate, bindPattern, bindPattern]
    exact h.bound hp rfl none env
  | .record variant components span, v, env, hp => by
    rw [Pattern.reannotate, bindPattern, bindPattern]
    exact .same_bind (bindComponents_omits components (hp.enter .components))
  | .wildcard span, v, env, _ => by
    rw [Pattern.reannotate, bindPattern]
    exact .refl _ _

theorem bindComponents_omits : ∀ (ps : List Pattern) {level : Nat → ValueLevel} {index : Nat}
    {env : Env}, Reached ctx m (.components level index ps) env →
    (bindComponents ctx level index ps).Omits e (Declaration.times id (Pattern.listDeclarations ps))
      (bindComponents ctx level index (Pattern.reannotateList r ps)) env
  | [], level, index, env, _ => by
    rw [Pattern.reannotateList, bindComponents]
    exact .refl _ _
  | p :: rest, level, index, env, hps => by
    rw [Pattern.reannotateList, bindComponents, bindComponents, Pattern.listDeclarations,
      Declaration.times_append]
    exact (bindPattern_omits p (hps.enter .firstComponent)).bind
      (bindComponents_omits rest (hps.enter .restComponents))

end

set_option linter.unusedSectionVars false in
mutual

/-- Evaluating an expression leaves the event out as often as the expression declares the
variable. -/
theorem eval_omits : ∀ (x : Expr) {env : Env}, Reached ctx m (.expr x) env →
    (eval ctx x).Omits e (Declaration.times id x.declarations) (eval ctx (x.reannotate r)) env
  | .null _, _, _ | .literal _ _, _, _ | .var _ _, _, _ | .self _, _, _ | .singleton _ _, _, _ => by
    rw [Expr.reannotate]
    exact .refl _ _
  | .field receiver component _, env, hx => by
    rw [Expr.reannotate, eval, eval]
    refine (evalOption_omits receiver ?_).bind_same _
    rintro x rfl
    exact hx.enter .fieldReceiver
  | .call receiver method args _, env, hx => by
    rw [Expr.reannotate, eval, eval, Expr.declarations, Declaration.times_append]
    refine (evalOption_omits receiver ?_).bind
      ((evalArgs_omits args (hx.enter .callArgs)).bind_same _)
    rintro x rfl
    exact hx.enter .callReceiver
  | .construct variant args _, env, hx => by
    rw [Expr.reannotate, eval, eval]
    exact (evalArgs_omits args (hx.enter .constructArgs)).bind_same _
  | .paren inner _, env, hx => by
    rw [Expr.reannotate, eval, eval]
    exact eval_omits inner (hx.enter .paren)
  | .instanceOf operand pattern _, env, hx => by
    rw [Expr.reannotate, eval, eval, Expr.declarations, Declaration.times_append]
    exact (eval_omits operand (hx.enter .operand)).bind
      ((bindPattern_omits h pattern (hx.enter .test)).bind_same _)
  | .conditional condition thenExpr elseExpr _, env, hx => by
    rw [Expr.reannotate, eval, eval, Expr.declarations, Declaration.times_append,
      Declaration.times_append, Nat.add_assoc]
    exact (eval_omits condition (hx.enter .condition)).bind
      (((eval_omits thenExpr (hx.enter .thenExpr)).fork
        (eval_omits elseExpr (hx.enter .elseExpr))).bind_same _)
  | .switch scrutinee arms _, env, hx => by
    rw [Expr.reannotate, eval, eval, Arm.any_isDefault_reannotate, Expr.declarations,
      Declaration.times_append]
    have harms := runArms_omits arms fun _ harm => hx.enter (.arm harm)
    exact (eval_omits scrutinee (hx.enter .scrutinee)).bind ((harms.alternatives _).bind_same _)
  | .assign target value _, env, hx => by
    rw [Expr.reannotate, eval, eval, Expr.span_reannotate]
    exact (eval_omits value (hx.enter .assignValue)).bind_same _
  | .other _ children _, env, hx => by
    rw [Expr.reannotate, eval, eval]
    exact (evalArgs_omits children (hx.enter .children)).bind_same _

theorem evalOption_omits : ∀ (o : Option Expr) {env : Env},
    (∀ x, o = some x → Reached ctx m (.expr x) env) →
    (evalOption ctx o).Omits e (Declaration.times id (Expr.optionDeclarations o))
      (evalOption ctx (Expr.reannotateOption r o)) env
  | none, env, _ => by
    rw [Expr.reannotateOption]
    exact .refl _ _
  | some x, env, ho => by
    rw [Expr.reannotateOption, evalOption, evalOption]
    exact (eval_omits x (ho x rfl)).bind_same _

theorem evalArgs_omits : ∀ (xs : List Expr) {required : Nat → Option Level} {index : Nat}
    {env : Env}, Reached ctx m (.args required index xs) env →
    (evalArgs ctx required index xs).Omits e (Declaration.times id (Expr.listDeclarations xs))
      (evalArgs ctx required index (Expr.reannotateList r xs)) env
  | [], required, index, env, _ => by
    rw [Expr.reannotateList]
    exact .refl _ _
  | x :: rest, required, index, env, hxs => by
    rw [Expr.reannotateList, evalArgs, evalArgs, Expr.span_reannotate, Expr.listDeclarations,
      Declaration.times_append]
    refine (eval_omits x (hxs.enter .firstArg)).bind
      (.same_bind ((evalArgs_omits rest ?_).bind_same _))
    rw [checkAgainst_apply]
    exact hxs.enter .restArgs

/-- The arms leave the event out as often as they declare the variable. -/
theorem runArms_omits : ∀ (arms : List Arm) {v : Evaluated} {env : Env},
    (∀ arm ∈ arms, Reached ctx m (.arm v arm) env) →
    Walk.OmitsAll e (Declaration.times id (Arm.listDeclarations arms)) (runArms ctx v arms)
      (runArms ctx v (Arm.reannotateList r arms)) env
  | [], v, env, _ => by
    rw [Arm.reannotateList, runArms]
    exact .nil
  | .mk label body _ :: rest, v, env, harms => by
    have hfirst := harms _ List.mem_cons_self
    rw [Arm.reannotateList, runArms, runArms, Arm.listDeclarations, Declaration.times_append,
      Declaration.times_append]
    refine .cons (.inScope ?_)
      (runArms_omits rest fun arm harm => harms arm (List.mem_cons_of_mem _ harm))
    exact (bindLabel_omits label (hfirst.enter .label)).bind
      (runBody_omits body (hfirst.enter .body))

theorem bindLabel_omits : ∀ (label : Label) {v : Evaluated} {env : Env},
    Reached ctx m (.label v label) env →
    (bindLabel ctx v label).Omits e (Declaration.times id label.declarations)
      (bindLabel ctx v (label.reannotate r)) env
  | .pattern pattern, v, env, hlabel => by
    rw [Label.reannotate, bindLabel, bindLabel]
    exact bindPattern_omits h pattern (hlabel.enter .labelPattern)
  | .constant expr, v, env, hlabel => by
    rw [Label.reannotate, bindLabel, bindLabel]
    exact (eval_omits expr (hlabel.enter .labelConstant)).bind_same _
  | .default, v, env, _ => by
    rw [Label.reannotate]
    exact .refl _ _

theorem runBody_omits : ∀ (body : ArmBody) {env : Env}, Reached ctx m (.body body) env →
    (runBody ctx body).Omits e (Declaration.times id body.declarations)
      (runBody ctx (body.reannotate r)) env
  | .expr expr, env, hbody => by
    rw [ArmBody.reannotate, runBody, runBody]
    exact (eval_omits expr (hbody.enter .bodyExpr)).bind_same _
  | .block block, env, hbody => by
    rw [ArmBody.reannotate, runBody, runBody]
    exact (execBlock_omits block (hbody.enter .bodyBlock)).bind_same _

/-- **A statement leaves the event out as often as it declares the variable.** -/
theorem exec_omits : ∀ (s : Stmt) {env : Env}, Reached ctx m (.stmt s) env →
    (exec ctx s).Omits e (Declaration.times id s.declarations) (exec ctx (s.reannotate r)) env
  | .declare decl none span, env, hs => by
    obtain ⟨hid, hannots⟩ := h.declared hs
    rw [Stmt.reannotate, LocalDecl.reannotate, hannots, Stmt.declarations,
      Declaration.times_cons_of_ne hid]
    exact .refl _ _
  | .declare decl (some init) span, env, hs => by
    obtain ⟨hid, hannots⟩ := h.declared hs
    have hresolve : resolveVariable ctx (decl.reannotate r).id (decl.reannotate r).annots =
        resolveVariable ctx decl.id decl.annots := by
      rw [LocalDecl.reannotate, hannots]
    rw [Stmt.reannotate, Expr.reannotateOption, exec, exec, hresolve, Stmt.declarations,
      Declaration.times_cons_of_ne hid]
    simp only [initLocal_reannotate]
    exact .same_bind ((eval_omits init (hs.enter .init)).bind_same _)
  | .expr expr _, env, hs => by
    rw [Stmt.reannotate, exec, exec]
    exact (eval_omits expr (hs.enter .stmtExpr)).bind_same _
  | .ifElse condition thenBranch elseBranch _, env, hs => by
    rw [Stmt.reannotate, exec, exec, Stmt.declarations, Declaration.times_append,
      Declaration.times_append, Nat.add_assoc]
    have hbranches := hs.enter .ifBranches
    refine .inScope ((eval_omits condition (hs.enter .ifCondition)).bind
      (((execBlock_omits thenBranch (hbranches.enter .thenBranch)).fork
        (execOption_omits elseBranch ?_)).bind_same _))
    rintro block rfl
    exact hbranches.enter .elseBranch
  | .loop condition body _, env, hs => by
    rw [Stmt.reannotate, exec, exec, Stmt.declarations, Declaration.times_append]
    have hbody := (hs.enter .loopBody).enter .thenBranch
    exact .inScope ((eval_omits condition (hs.enter .loopCondition)).bind
      (((execBlock_omits body hbody).fork (.refl _ _)).bind_same _))
  | .switch scrutinee arms _, env, hs => by
    rw [Stmt.reannotate, exec, exec, Arm.any_isDefault_reannotate, Stmt.declarations,
      Declaration.times_append]
    have harms := runArms_omits arms fun _ harm => hs.enter (.stmtArm harm)
    exact (eval_omits scrutinee (hs.enter .stmtScrutinee)).bind ((harms.alternatives _).bind_same _)
  | .ret none _, env, _ => by
    rw [Stmt.reannotate, Expr.reannotateOption]
    exact .refl _ _
  | .ret (some value) _, env, hs => by
    rw [Stmt.reannotate, Expr.reannotateOption, exec, exec, Expr.span_reannotate]
    exact (eval_omits value (hs.enter .returned)).bind_same _
  | .block block _, env, hs => by
    rw [Stmt.reannotate, exec, exec]
    exact execBlock_omits block (hs.enter .stmtBlock)

/-- **Running statements leaves the event out as often as they declare the variable.** -/
theorem execAll_omits : ∀ (stmts : List Stmt) {env : Env}, Reached ctx m (.stmts stmts) env →
    (execAll ctx stmts).Omits e (Declaration.times id (Stmt.listDeclarations stmts))
      (execAll ctx (Stmt.reannotateList r stmts)) env
  | [], env, _ => by
    rw [Stmt.reannotateList]
    exact .refl _ _
  | s :: rest, env, hstmts => by
    rw [Stmt.reannotateList, execAll, execAll, Stmt.listDeclarations, Declaration.times_append]
    exact (exec_omits s (hstmts.enter .firstStmt)).bind
      (execAll_omits rest (hstmts.enter .restStmts))

theorem execBlock_omits : ∀ (block : Block) {env : Env}, Reached ctx m (.block block) env →
    (execBlock ctx block).Omits e (Declaration.times id block.declarations)
      (execBlock ctx (block.reannotate r)) env
  | .mk stmts _, env, hblock => by
    rw [Block.reannotate, execBlock, execBlock]
    exact (execAll_omits stmts (hblock.enter .blockStmts)).inScope

theorem execOption_omits : ∀ (o : Option Block) {env : Env},
    (∀ block, o = some block → Reached ctx m (.block block) env) →
    (execOption ctx o).Omits e (Declaration.times id (Block.optionDeclarations o))
      (execOption ctx (Block.reannotateOption r o)) env
  | none, env, _ => by
    rw [Block.reannotateOption]
    exact .refl _ _
  | some block, env, ho => by
    rw [Block.reannotateOption, execOption, execOption]
    exact execBlock_omits block (ho block rfl)

end

end Omission

/-! ## Redundant annotations -/

/-- A pattern variable with one marker, at the annotation `a`, which is found to say what is known
of the matched value: it asks for `l`. -/
structure RedundantVariable (ctx : Context) (m : Method) (v : Evaluated) (p : Pattern)
    (var : PatternVar) (a : Annot) (env : Env) (l : Level) : Prop where
  reached : Reached ctx m (.pattern v p) env
  var? : p.var? = some var
  marked : ∃ marker, ctx.names.marked var.annots = [(marker, a)]
  hinted : .found (.redundantMarker a.span l) ∈ ctx.bindingLog var (p.passed ctx.model v.level)

/-- An annotation that repeats the level of the matched value gives the variable the level that it
takes without. -/
theorem PatternVar.levelFor_of_explicit {l : Level} {incoming : ValueLevel}
    (h : incoming.explicit? = some l) : levelFor (some (.level l)) incoming = incoming.matched := by
  match incoming, h with
  | .level .bound, rfl | .level .closed, rfl | .inherited .bound, rfl | .inherited .closed, rfl =>
    rfl

/-- A single marker is resolved as itself, without conflict. -/
theorem Names.resolve_of_marked {names : Names} {annots : List Annot} {marker : Marker} {a : Annot}
    (h : names.marked annots = [(marker, a)]) :
    names.resolve annots = { binding := some marker.binding, span := some a.span } := by
  rw [resolve, h]
  simp [losers]

/-- Unmarking a list with one marker deletes that annotation. -/
theorem Names.unmark_of_marked {names : Names} {annots : List Annot} {marker : Marker} {a : Annot}
    (h : names.marked annots = [(marker, a)]) (id : DeclId) :
    ∃ front back, annots = front ++ a :: back ∧ names.unmark id id annots = front ++ back := by
  have hunmarked : ∀ {bs : List Annot}, (∀ b ∈ bs, (names.marker? b).map (·, b) = none) →
      bs.filter (fun b => (names.marker? b).isNone) = bs := by
    intro bs hbs
    exact List.filter_eq_self.2 fun b hb => by simpa using hbs b hb
  obtain ⟨front, b, back, rfl, hfront, hb, hback⟩ := List.filterMap_eq_cons_iff.1 h
  obtain ⟨_, hmarker, heq⟩ := Option.map_eq_some_iff.1 hb
  obtain ⟨rfl, rfl⟩ := Prod.mk.inj heq
  refine ⟨front, back, rfl, ?_⟩
  rw [unmark, if_pos rfl, List.filter_append, List.filter_cons_of_neg (by simp [hmarker]),
    hunmarked hfront, hunmarked (List.filterMap_eq_nil_iff.1 hback)]

/-- A finding that is logged by itself is asked for. -/
theorem Options.finding_of_mem {options : Options} {d : Diagnostic}
    (h : .found d ∈ options.finding d) : options.finding d = [.found d] := by
  unfold finding at h ⊢
  split at h
  · next hadmits => rw [if_pos hadmits]
  · cases h

section Variable

variable {ctx : Context} {m : Method} {v : Evaluated} {p : Pattern} {var : PatternVar} {a : Annot}
  {start : Env} {l : Level} (h : RedundantVariable ctx m v p var a start l)
include h

/-- The annotation asks for the level that the matched value has, and the hint is asked for. -/
theorem RedundantVariable.resolve :
    ctx.names.resolve var.annots = { binding := some (.level l), span := some a.span } ∧
      l ≠ .inherit ∧ (p.passed ctx.model v.level).explicit? = some l ∧
      ctx.options.finding (.redundantMarker a.span l) = [.found (.redundantMarker a.span l)] := by
  obtain ⟨marker, hmarked⟩ := h.marked
  have hresolve := Names.resolve_of_marked hmarked
  have hhinted := h.hinted
  simp only [Context.bindingLog, hresolve, Event.ofConflicts, List.nil_append,
    Option.bind_some] at hhinted
  cases hexplicit : marker.binding.explicit? with
  | none => simp [hexplicit] at hhinted
  | some annotated =>
    simp only [hexplicit, List.mem_append] at hhinted
    obtain hhint | hnote := hhinted
    · obtain ⟨rfl, hvalue⟩ := of_mem_redundancyLog hhint
      obtain ⟨hbinding, hne⟩ := Discipline.explicit?_eq_some hexplicit
      rw [redundancyLog, if_pos hvalue] at hhint
      exact ⟨hbinding ▸ hresolve, hne, hvalue, Options.finding_of_mem hhint⟩
    · simp at hnote

/-- Without its annotation the variable is bound to the same level, and only the hint is missing. -/
theorem RedundantVariable.bindVariable_omits (type : Option String) (env : Env) :
    (bindVariable ctx var (p.passed ctx.model v.level) type).Omits
      (.found (.redundantMarker a.span l)) 1
      (bindVariable ctx (var.reannotate (ctx.names.unmark var.id)) (p.passed ctx.model v.level)
        type) env := by
  obtain ⟨hresolve, hne, hvalue, hfinding⟩ := h.resolve
  have hresolve' : ctx.names.resolve (var.reannotate (ctx.names.unmark var.id)).annots = {} :=
    ctx.names.resolve_unmark var.id var.annots
  have hexplicit : Binding.explicit? (.level l) = some l := by
    cases l with
    | inherit => exact absurd rfl hne
    | bound | closed => rfl
  have hlevel := PatternVar.levelFor_of_explicit hvalue
  generalize p.passed ctx.model v.level = incoming at hvalue hlevel ⊢
  have hlog : ctx.bindingLog var incoming = .found (.redundantMarker a.span l) ::
      ctx.bindingLog (var.reannotate (ctx.names.unmark var.id)) incoming := by
    simp only [Context.bindingLog, hresolve, hresolve', Option.bind_some, hexplicit, redundancyLog,
      hvalue, hfinding, hlevel, if_true]
    rfl
  refine ⟨rfl, ?_, ?_⟩ <;> simp only [bindVariable_apply]
  · rw [hresolve, hresolve', hlevel]
    rfl
  · rw [hlog]
    exact .leave (.refl _ _)

end Variable

/-- What a new checker logs in a method of a unit. -/
def Config.methodLog (config : Config) (u : CompilationUnit) (m : Method) : List Event :=
  (Checker.checkMethod config.names (.ofUnit config.names u) { options := config.options } m).2

section Unmarked

variable {config : Config} {u : CompilationUnit} (hu : u.validate = .ok u) {m : Method}
  (hm : m ∈ u.allMethods) {v : Evaluated} {p : Pattern} {var : PatternVar} {a : Annot} {start : Env}
  {l : Level} (h : RedundantVariable (config.context u m) m v p var a start l)
include hu hm h

/-- Taking the annotation off leaves the hint out, and nothing else. -/
theorem RedundantVariable.omission :
    Omission (config.context u m) (config.names.unmark var.id) m var.id
      (.found (.redundantMarker a.span l)) where
  bound {v' p' start' var'} hp hvar type env := by
    by_cases hid : var'.id = var.id
    · -- a variable is bound at one point only
      obtain ⟨heq, rfl⟩ := hp.own_unique hu hm (Part.own?_pattern hvar) h.reached
        (Part.own?_pattern h.var?) hid
      cases heq
      obtain rfl : var' = var := Option.some.inj (hvar.symm.trans h.var?)
      exact (h.bindVariable_omits type env).cast List.count_cons_self
    · have hsame : var'.reannotate (config.names.unmark var.id) = var' := by
        rw [PatternVar.reannotate, Names.unmark, if_neg hid]
      rw [hsame, Declaration.times_cons_of_ne hid]
      exact .refl _ _
  declared {decl init span start'} hp := by
    have hid : decl.id ≠ var.id := fun hid =>
      nomatch (hp.own_unique hu hm rfl h.reached (Part.own?_pattern h.var?) hid).1
    exact ⟨hid, by rw [Names.unmark, if_neg hid]⟩

/-- The body declares the variable once. -/
theorem RedundantVariable.times {stmts : List Stmt} {span : Span}
    (hbody : m.body = some (.mk stmts span)) :
    Declaration.times var.id (Stmt.listDeclarations stmts) = 1 := by
  have hstart : Reached (config.context u m) m (.stmts stmts) _ := .start hbody
  have hmem : var.declaration ∈ Block.optionDeclarations m.body := by
    refine h.reached.declarations_subset ?_
    rw [Part.declarations_eq (config.context u m) start, Part.own?_pattern h.var?]
    exact List.mem_cons_self
  rw [hbody] at hmem
  exact List.count_eq_one_of_mem (hstart.nodup_declarations hu hm) (List.mem_map_of_mem hmem)

/-- Taking the annotation off takes the hint out of what the method logs, at one place. -/
theorem RedundantVariable.methodLog_split :
    ∃ before after,
      config.methodLog u m = before ++ .found (.redundantMarker a.span l) :: after ∧
      config.methodLog u
        { m with body := Block.reannotateOption (config.names.unmark var.id) m.body } =
          before ++ after := by
  obtain ⟨⟨stmts, span⟩, hbody⟩ := h.reached.exists_body
  have homits := ((h.omission hu hm).execAll_omits stmts (.start hbody)).log
  rw [h.times hu hm hbody] at homits
  obtain ⟨before, after, hlog, hlog'⟩ := homits.split
  refine ⟨.noted (.method m.name (config.context u m).self (config.context u m).returns) :: before,
    after, ?_, ?_⟩
  · rw [Config.methodLog, Checker.checkMethod_eq, hbody]
    exact congrArg (_ :: ·) hlog
  · rw [Config.methodLog, Checker.checkMethod_eq, hbody]
    exact congrArg (_ :: ·) hlog'

end Unmarked

/-! ## Reports -/

/-- Another body for a method changes what is logged about that method only. -/
theorem runLog_withBody (config : Config) {u : CompilationUnit} (hu : u.validate = .ok u)
    {m : Method} (hm : m ∈ u.allMethods) (body : Option Block) :
    ∃ before after, runLog config u = before ++ config.methodLog u m ++ after ∧
      runLog config (u.withBody m.id body) =
        before ++ config.methodLog u { m with body } ++ after := by
  obtain ⟨before, after, hmethods, hmethods'⟩ :=
    CompilationUnit.allMethods_withBody_of_mem hu hm body
  have hheader := u.header_withBody m.id body
  have hlogs : config.methodLog (u.withBody m.id body) = config.methodLog u := by
    funext n
    rw [Config.methodLog, Config.methodLog, checkMethod_select, checkMethod_select,
      checkMethod_congr hheader]
  have hrun : ∀ u, runLog config u =
      Model.log config.names u ++ u.allMethods.flatMap (config.methodLog u) :=
    runLog_eq config
  refine ⟨Model.log config.names u ++ before.flatMap (config.methodLog u),
    after.flatMap (config.methodLog u), ?_, ?_⟩
  · rw [hrun, hmethods, List.flatMap_append, List.flatMap_cons]
    simp only [List.append_assoc]
  · rw [hrun, hmethods', Model.log_congr hheader, hlogs, List.flatMap_append, List.flatMap_cons]
    simp only [List.append_assoc]

section Sorting

variable {α : Type} {le : α → α → Bool}
  (htrans : ∀ a b c, le a b = true → le b c = true → le a c = true)
  (htotal : ∀ a b, (le a b || le b a) = true)
include htrans htotal

/-- Sorting a list with one element less leaves that element out. -/
theorem mergeSort_append_cons (d : α) (xs ys : List α) : ∃ before after,
    (xs ++ d :: ys).mergeSort le = before ++ d :: after ∧
      (xs ++ ys).mergeSort le = before ++ after := by
  induction xs with
  | nil =>
    obtain ⟨before, after, hcons, htail, -⟩ := mergeSort_cons_split htrans htotal d ys
    exact ⟨before, after, hcons, htail⟩
  | cons x xs ih =>
    obtain ⟨before, after, hwith, hwithout⟩ := ih
    obtain ⟨first, rest, hcons, htail, hfirst, hrest⟩ :=
      mergeSort_cons_split htrans htotal x (xs ++ d :: ys)
    obtain ⟨first', rest', hcons', htail', hfirst', hrest'⟩ :=
      mergeSort_cons_split htrans htotal x (xs ++ ys)
    have hspan := span_append hfirst' hrest'
    rw [← htail', hwithout] at hspan
    rw [hwith] at htail
    rw [List.cons_append, List.cons_append, hcons, hcons']
    -- `x` goes to the same place in both lists: before `d`, or after it
    have hplace : (∃ between, before = first ++ between ∧ rest = between ++ d :: after) ∨
        ∃ between, first = before ++ d :: between ∧ after = between ++ rest := by
      obtain ⟨between, hleft, hright⟩ | hbefore := List.append_eq_append_iff.1 htail
      · obtain ⟨rfl, hnone⟩ | ⟨between', rfl, hafter⟩ := List.cons_eq_append_iff.1 hright
        · exact Or.inl ⟨[], by rw [hleft, List.append_nil, List.append_nil], hnone⟩
        · exact Or.inr ⟨between', hleft, hafter⟩
      · exact Or.inl hbefore
    obtain ⟨between, rfl, rfl⟩ | ⟨between, rfl, rfl⟩ := hplace
    · rw [List.append_assoc, span_append hfirst fun b hb => hrest b ?_] at hspan
      · obtain ⟨rfl, rfl⟩ := Prod.mk.inj hspan
        exact ⟨first ++ x :: between, after, by simp, by simp⟩
      · simp only [List.mem_append, List.mem_cons] at hb ⊢
        exact hb.imp_right Or.inr
    · rw [← List.append_assoc, span_append (fun b hb => hfirst b ?_) hrest] at hspan
      · obtain ⟨rfl, rfl⟩ := Prod.mk.inj hspan
        exact ⟨before, between ++ x :: rest, by simp, by simp⟩
      · simp only [List.mem_append, List.mem_cons] at hb ⊢
        exact hb.imp_right Or.inr

end Sorting

/-- A diagnostic can be left out before sorting or after it. -/
theorem Findings.sortDiagnostics_append_cons (d : Diagnostic) (xs ys : List Diagnostic) :
    ∃ before after, sortDiagnostics (xs ++ d :: ys) = before ++ d :: after ∧
      sortDiagnostics (xs ++ ys) = before ++ after :=
  mergeSort_append_cons Diagnostic.start_le_trans Diagnostic.start_le_total d xs ys

/-- A finding less in the log of a run is a finding less in the report. -/
theorem check_of_runLog {config : Config} {u u' : CompilationUnit} {d : Diagnostic}
    {before after : List Event} (h : runLog config u = before ++ .found d :: after)
    (h' : runLog config u' = before ++ after) :
    (∃ first rest, (check config u).diagnostics = first ++ d :: rest ∧
      (check config u').diagnostics = first ++ rest) ∧
      (check config u').unreliable = (check config u).unreliable := by
  refine ⟨?_, Findings.eq_of_mem_iff (pairwise_check_unreliable config u')
    (pairwise_check_unreliable config u) fun id => ?_⟩
  · rw [check_diagnostics_eq_sort, check_diagnostics_eq_sort, h, h']
    simp only [Event.diagnostics, List.filterMap_append, List.filterMap_cons, Event.diagnostic?]
    exact Findings.sortDiagnostics_append_cons d _ _
  · show id ∈ Findings.sortIds _ ↔ id ∈ Findings.sortIds _
    rw [Findings.mem_sortIds, Findings.mem_sortIds, Findings.mem_unreliable_ofLog,
      Findings.mem_unreliable_ofLog, h, h']
    simp

/-- **Following the hint that the annotation of a pattern variable is redundant changes nothing
else.** The report of the unit without that annotation has the same diagnostics in the same order,
except that this hint is missing, and the same unreliable declarations. -/
theorem redundant_hint_followed (config : Config) {u : CompilationUnit} (hu : u.validate = .ok u)
    {m : Method} (hm : m ∈ u.allMethods) {v : Evaluated} {p : Pattern} {var : PatternVar}
    {a : Annot} {env : Env} {l : Level}
    (h : RedundantVariable (config.context u m) m v p var a env l) :
    (∃ front back, var.annots = front ++ a :: back ∧
      config.names.unmark var.id var.id var.annots = front ++ back) ∧
    (∃ before after,
      (check config u).diagnostics = before ++ .redundantMarker a.span l :: after ∧
      (check config (u.unmark config.names m var.id)).diagnostics = before ++ after) ∧
    (check config (u.unmark config.names m var.id)).unreliable = (check config u).unreliable := by
  obtain ⟨marker, hmarked⟩ := h.marked
  obtain ⟨before, after, hlog, hlog'⟩ := h.methodLog_split hu hm
  obtain ⟨first, rest, hrun, hrun'⟩ := runLog_withBody config hu hm
    (Block.reannotateOption (config.names.unmark var.id) m.body)
  rw [hlog, List.append_assoc, List.append_assoc, ← List.append_assoc] at hrun
  rw [hlog', List.append_assoc, List.append_assoc, ← List.append_assoc] at hrun'
  exact ⟨Names.unmark_of_marked hmarked var.id, check_of_runLog hrun hrun'⟩

namespace Restating

/-- `@Bound` -/
def marker : Annot :=
  { name := "Bound", span := .spot 3 }

/-- `Leaf x`, annotated with what is given. -/
def pattern (annots : List Annot) : Pattern :=
  .typeTest ⟨30⟩ (some { id := ⟨2⟩, name := "x", annots, span := .spot 3 }) (.spot 3)

/-- `@Closed Leaf m(@Bound Leaf p) { if (p instanceof … Leaf x) { return x; } }` -/
def method (annots : List Annot) : Method :=
  { id := ⟨0⟩
    name := "m"
    isStatic := true
    annots := [{ name := "Closed", span := .spot 0 }]
    returnType := some "Leaf"
    params := [
      { id := ⟨1⟩, name := "p", type := "Leaf", annots := [{ name := "Bound", span := .spot 1 }],
        isVarargs := false, span := .spot 1 }]
    body := some (.mk [
      .ifElse (.instanceOf (.var ⟨1⟩ (.spot 2)) (pattern annots) (.spot 2))
        (.mk [.ret (some (.var ⟨2⟩ (.spot 5))) (.spot 4)] (.spot 4)) none (.spot 2)] (.spot 1))
    span := .spot 0 }

/-- The unit that declares the type and the method. -/
def unit (annots : List Annot) : CompilationUnit :=
  { name := "restating"
    types := [
      { id := ⟨30⟩, name := "Leaf", annots := [], shape := .singleton, supertypes := [],
        methods := [], span := .spot 0 }]
    methods := [method annots] }

/-- The context in which the annotated variable is bound. -/
def context : Context :=
  ({} : Config).context (unit [marker]) (method [marker])

theorem redundantVariable :
    RedundantVariable context (method [marker]) { level := .level .bound, built := none }
      (pattern [marker]) { id := ⟨2⟩, name := "x", annots := [marker], span := .spot 3 } marker
      (Env.ofParams context.model (method [marker]).params).push .bound where
  reached := (((Reached.start rfl).enter .firstStmt).enter .ifCondition).enter .test
  var? := rfl
  marked := ⟨.bound, by decide⟩
  hinted := by decide

theorem unmark_eq :
    (unit [marker]).unmark ({} : Config).names (method [marker]) ⟨2⟩ = unit [] := by
  have hannots : [marker].filter (fun a => ((({} : Config).names.marker? a).isNone)) = [] := by
    decide
  exact congrArg unit hannots

end Restating

/-- A bound parameter is found to be a leaf, which is called bound again. Without the annotation the
leaf is still found too weak to be returned. -/
theorem redundant_hint_followed_leaf :
    (Restating.unit [Restating.marker]).validate = .ok (Restating.unit [Restating.marker]) ∧
      Event.diagnostics (runLog {} (Restating.unit [])) =
        [.levelMismatch (.spot 5) .closed .bound] ∧
      (∃ before after,
        (check {} (Restating.unit [Restating.marker])).diagnostics =
          before ++ .redundantMarker (.spot 3) .bound :: after ∧
        (check {} (Restating.unit [])).diagnostics = before ++ after) ∧
      (check {} (Restating.unit [])).unreliable =
        (check {} (Restating.unit [Restating.marker])).unreliable := by
  have hfollowed := redundant_hint_followed {} (u := Restating.unit [Restating.marker]) rfl
    (m := Restating.method [Restating.marker]) List.mem_cons_self Restating.redundantVariable
  rw [Restating.unmark_eq] at hfollowed
  exact ⟨rfl, by decide, hfollowed.2⟩

end Closedness
