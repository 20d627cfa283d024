import Closedness.Proofs.Findings
import Closedness.Proofs.Headers
import Closedness.Proofs.Joins
import Closedness.Proofs.Variables

/-!
# The order of arms does not matter

`Expr.Reordered`, `Stmt.Reordered` and their companions relate a body to one in which the arms of
any number of switches, nested ones included, stand in another order. Such bodies have the same
outcome up to the order of what they log (`eval_reordered`, `exec_reordered`): the arms of a switch
start from one environment, and the paths through it meet in the same environment in any order. So
reordering the arms of a valid unit reorders its findings and changes nothing else about its report
(`check_reordered`).
-/

namespace Closedness

/-! ## Bodies up to the order of arms -/

mutual

/-- The expressions differ in the order of arms only. -/
inductive Expr.Reordered : Expr → Expr → Prop
  | refl (e : Expr) : Expr.Reordered e e
  | field {receiver receiver' component span} (h : Expr.OptionReordered receiver receiver') :
    Expr.Reordered (.field receiver component span) (.field receiver' component span)
  | call {receiver receiver' method args args' span}
    (h : Expr.OptionReordered receiver receiver') (hargs : Expr.ListReordered args args') :
    Expr.Reordered (.call receiver method args span) (.call receiver' method args' span)
  | construct {variant args args' span} (hargs : Expr.ListReordered args args') :
    Expr.Reordered (.construct variant args span) (.construct variant args' span)
  | paren {inner inner' span} (h : Expr.Reordered inner inner') :
    Expr.Reordered (.paren inner span) (.paren inner' span)
  | instanceOf {operand operand' pattern span} (h : Expr.Reordered operand operand') :
    Expr.Reordered (.instanceOf operand pattern span) (.instanceOf operand' pattern span)
  | conditional {condition condition' thenExpr thenExpr' elseExpr elseExpr' span}
    (h : Expr.Reordered condition condition') (hthen : Expr.Reordered thenExpr thenExpr')
    (helse : Expr.Reordered elseExpr elseExpr') :
    Expr.Reordered (.conditional condition thenExpr elseExpr span)
      (.conditional condition' thenExpr' elseExpr' span)
  | switch {scrutinee scrutinee' arms arms' arms'' span}
    (h : Expr.Reordered scrutinee scrutinee') (harms : Arm.ListReordered arms arms')
    (hperm : arms'.Perm arms'') :
    Expr.Reordered (.switch scrutinee arms span) (.switch scrutinee' arms'' span)
  | assign {target value value' span} (h : Expr.Reordered value value') :
    Expr.Reordered (.assign target value span) (.assign target value' span)
  | other {type children children' span} (h : Expr.ListReordered children children') :
    Expr.Reordered (.other type children span) (.other type children' span)

inductive Expr.ListReordered : List Expr → List Expr → Prop
  | refl (es : List Expr) : Expr.ListReordered es es
  | cons {e e' rest rest'} (h : Expr.Reordered e e') (hrest : Expr.ListReordered rest rest') :
    Expr.ListReordered (e :: rest) (e' :: rest')

inductive Expr.OptionReordered : Option Expr → Option Expr → Prop
  | refl (e : Option Expr) : Expr.OptionReordered e e
  | some {e e'} (h : Expr.Reordered e e') : Expr.OptionReordered (some e) (some e')

/-- The statements differ in the order of arms only. -/
inductive Stmt.Reordered : Stmt → Stmt → Prop
  | refl (s : Stmt) : Stmt.Reordered s s
  | declare {decl init init' span} (h : Expr.Reordered init init') :
    Stmt.Reordered (.declare decl (some init) span) (.declare decl (some init') span)
  | expr {e e' span} (h : Expr.Reordered e e') : Stmt.Reordered (.expr e span) (.expr e' span)
  | ifElse {condition condition' thenBranch thenBranch' elseBranch elseBranch' span}
    (h : Expr.Reordered condition condition') (hthen : Block.Reordered thenBranch thenBranch')
    (helse : Block.OptionReordered elseBranch elseBranch') :
    Stmt.Reordered (.ifElse condition thenBranch elseBranch span)
      (.ifElse condition' thenBranch' elseBranch' span)
  | loop {condition condition' body body' span} (h : Expr.Reordered condition condition')
    (hbody : Block.Reordered body body') :
    Stmt.Reordered (.loop condition body span) (.loop condition' body' span)
  | switch {scrutinee scrutinee' arms arms' arms'' span}
    (h : Expr.Reordered scrutinee scrutinee') (harms : Arm.ListReordered arms arms')
    (hperm : arms'.Perm arms'') :
    Stmt.Reordered (.switch scrutinee arms span) (.switch scrutinee' arms'' span)
  | ret {value value' span} (h : Expr.Reordered value value') :
    Stmt.Reordered (.ret (some value) span) (.ret (some value') span)
  | block {b b' span} (h : Block.Reordered b b') :
    Stmt.Reordered (.block b span) (.block b' span)

inductive Stmt.ListReordered : List Stmt → List Stmt → Prop
  | refl (ss : List Stmt) : Stmt.ListReordered ss ss
  | cons {s s' rest rest'} (h : Stmt.Reordered s s') (hrest : Stmt.ListReordered rest rest') :
    Stmt.ListReordered (s :: rest) (s' :: rest')

inductive Block.Reordered : Block → Block → Prop
  | mk {stmts stmts' span} (h : Stmt.ListReordered stmts stmts') :
    Block.Reordered (.mk stmts span) (.mk stmts' span)

inductive Block.OptionReordered : Option Block → Option Block → Prop
  | none : Block.OptionReordered none none
  | some {b b'} (h : Block.Reordered b b') : Block.OptionReordered (some b) (some b')

/-- The arms differ, one by one, in the order of arms further inside. -/
inductive Arm.ListReordered : List Arm → List Arm → Prop
  | refl (arms : List Arm) : Arm.ListReordered arms arms
  | cons {label label' body body' span rest rest'} (h : Label.Reordered label label')
    (hbody : ArmBody.Reordered body body') (hrest : Arm.ListReordered rest rest') :
    Arm.ListReordered (.mk label body span :: rest) (.mk label' body' span :: rest')

inductive Label.Reordered : Label → Label → Prop
  | refl (label : Label) : Label.Reordered label label
  | constant {e e'} (h : Expr.Reordered e e') : Label.Reordered (.constant e) (.constant e')

inductive ArmBody.Reordered : ArmBody → ArmBody → Prop
  | expr {e e'} (h : Expr.Reordered e e') : ArmBody.Reordered (.expr e) (.expr e')
  | block {b b'} (h : Block.Reordered b b') : ArmBody.Reordered (.block b) (.block b')

end

/-! ## Outcomes up to the order of what is logged -/

/-- The outcomes differ at most in the order of what they log. -/
structure Outcome.Agrees {α : Type} (a b : Outcome α) : Prop where
  value : a.value = b.value
  env : a.env = b.env
  log : a.log.Perm b.log

theorem Outcome.Agrees.refl {α : Type} (a : Outcome α) : a.Agrees a :=
  ⟨rfl, rfl, .refl _⟩

namespace Walk

variable {α β γ : Type} {declared declared' assigned : List DeclId}

/-- The walks have the same outcome, up to the order of what they log, wherever the given variables
are new. -/
def Agrees (declared : List DeclId) (v w : Walk α) : Prop :=
  ∀ env : Env, env.Fresh declared → (v env).Agrees (w env)

namespace Agrees

theorem refl (w : Walk α) : Agrees declared w w :=
  fun env _ => .refl (w env)

theorem mono {v w : Walk α} (h : Agrees declared v w) (hd : declared.Subperm declared') :
    Agrees declared' v w :=
  fun env hf => h env (hf.subperm hd)

/-- Walks that agree may be continued by walks that agree. -/
theorem bind {v w : Walk α} {k k' : α → Walk β} (h : Agrees declared v w)
    (hstep : v.Evolves declared assigned) (hnext : ∀ a, Agrees declared' (k a) (k' a)) :
    Agrees (declared ++ declared') (v >>= k) (w >>= k') := by
  intro env hf
  obtain ⟨hvalue, henv, hlog⟩ := h env hf.left
  obtain ⟨hvalue', henv', hlog'⟩ := hnext (v env).value (v env).env ((hstep env hf.left).fresh hf)
  rw [bind_apply, bind_apply, ← hvalue, ← henv]
  exact ⟨hvalue', henv', hlog.append hlog'⟩

/-- Going on alike from the same outcome. -/
theorem bind_same {v w : Walk α} (h : Agrees declared v w) (k : α → Walk β) :
    Agrees declared (v >>= k) (w >>= k) := by
  intro env hf
  obtain ⟨hvalue, henv, hlog⟩ := h env hf
  rw [bind_apply, bind_apply, ← hvalue, ← henv]
  exact ⟨rfl, rfl, hlog.append_right _⟩

theorem still_bind {v : Walk α} {k k' : α → Walk β} (hv : Still v)
    (hnext : ∀ a, Agrees declared (k a) (k' a)) : Agrees declared (v >>= k) (v >>= k') := by
  intro env hf
  obtain ⟨hvalue, henv, hlog⟩ := hnext (v env).value env hf
  rw [bind_apply, bind_apply, hv env]
  exact ⟨hvalue, henv, hlog.append_left _⟩

theorem inScope {v w : Walk α} (h : Agrees declared v w) : Agrees declared v.inScope w.inScope := by
  intro env hf
  obtain ⟨hvalue, henv, hlog⟩ := h env.push hf.push
  exact ⟨hvalue, congrArg Env.pop henv, hlog⟩

theorem fork {v w : Walk α} {v' w' : Walk β} (h : Agrees declared v w)
    (h' : Agrees declared' v' w') : Agrees (declared ++ declared') (v.fork v') (w.fork w') := by
  intro env hf
  obtain ⟨hvalue, henv, hlog⟩ := h env hf.left
  obtain ⟨hvalue', henv', hlog'⟩ := h' env hf.right
  rw [fork_apply, fork_apply, hvalue, henv, hvalue', henv']
  exact ⟨rfl, rfl, hlog.append hlog'⟩

end Agrees

/-- Walks that agree one by one log the same, up to its order. -/
theorem flatMap_log_perm {env : Env} {vs ws : List (Walk α)}
    (h : List.Forall₂ (fun v w => (v env).Agrees (w env)) vs ws) :
    ((vs.map fun v => v env).flatMap Outcome.log).Perm
      ((ws.map fun w => w env).flatMap Outcome.log) := by
  induction h with
  | nil => exact .refl _
  | cons hvw _ ih => exact hvw.log.append ih

/-- What does not depend on the order of logs is the same of walks that agree. -/
theorem map_eq_of_forall₂ {env : Env} {vs ws : List (Walk α)} {f : Outcome α → β}
    (hf : ∀ {a b : Outcome α}, a.Agrees b → f a = f b)
    (h : List.Forall₂ (fun v w => (v env).Agrees (w env)) vs ws) :
    (vs.map fun v => v env).map f = (ws.map fun w => w env).map f := by
  induction h with
  | nil => rfl
  | cons hvw _ ih => exact congrArg₂ List.cons (hf hvw) ih

/-- The arms of a switch may be replaced by arms that agree with them, in any order. -/
theorem alternatives_agrees {exhaustive : Bool} {env : Env} (hf : env.Fresh [])
    {vs ws ws' : List (Walk (Option ValueLevel))}
    (hvs : ∀ v ∈ vs, env.Evolves [] assigned (v env).env)
    (h : List.Forall₂ (fun v w => (v env).Agrees (w env)) vs ws) (hperm : ws.Perm ws') :
    (alternatives exhaustive vs env).Agrees (alternatives exhaustive ws' env) := by
  -- replacing the arms one by one keeps their values and ends; only then does the order change
  have houtcomes := hperm.map fun w => w env
  have hvalues := map_eq_of_forall₂ Outcome.Agrees.value h
  have henvs := map_eq_of_forall₂ Outcome.Agrees.env h
  refine ⟨?_, ?_, ?_⟩
  · exact (congrArg meetAll hvalues).trans (meetAll_perm (houtcomes.map _))
  · have henv : ∀ o ∈ (vs.map fun v => v env).map Outcome.env, env.Evolves [] assigned o := by
      simp only [List.map_map, List.mem_map, Function.comp_apply]
      rintro o ⟨v, hv, rfl⟩
      exact hvs v hv
    exact Env.joinAll_perm hf henv (henvs ▸ houtcomes.map _)
  · exact (flatMap_log_perm h).trans (houtcomes.flatMap_right _)

end Walk

/-! ## What does not depend on the order of arms -/

theorem Expr.Reordered.span_eq {e e' : Expr} (h : e.Reordered e') : e.span = e'.span := by
  cases h <;> rfl

theorem Expr.isNullLiteral_reordered : ∀ (e : Expr) {e' : Expr}, e.Reordered e' →
    e.isNullLiteral = e'.isNullLiteral
  | .paren inner _, _, h => by
    cases h with
    | refl => rfl
    | paren h =>
      have hinner := isNullLiteral_reordered inner h
      exact hinner
  | .null _, _, h | .literal _ _, _, h | .var _ _, _, h | .self _, _, h | .field _ _ _, _, h
  | .call _ _ _ _, _, h | .construct _ _ _, _, h | .singleton _ _, _, h | .instanceOf _ _ _, _, h
  | .conditional _ _ _ _, _, h | .switch _ _ _, _, h | .assign _ _ _, _, h
  | .other _ _ _, _, h => by
    cases h <;> rfl

/-- Static types do not depend on the order of arms. -/
theorem Expr.staticType?_reordered (ctx : Context) (env : Env) : ∀ (e : Expr) {e' : Expr},
    e.Reordered e' → e.staticType? ctx env = e'.staticType? ctx env
  | .paren inner _, _, h => by
    cases h with
    | refl => rfl
    | paren h =>
      rw [Expr.staticType?, Expr.staticType?]
      exact staticType?_reordered ctx env inner h
  | .conditional _ thenExpr _ _, _, h => by
    cases h with
    | refl => rfl
    | conditional _ h _ =>
      rw [Expr.staticType?, Expr.staticType?]
      exact staticType?_reordered ctx env thenExpr h
  | .assign _ value _, _, h => by
    cases h with
    | refl => rfl
    | assign h =>
      rw [Expr.staticType?, Expr.staticType?]
      exact staticType?_reordered ctx env value h
  | .null _, _, h | .literal _ _, _, h | .var _ _, _, h | .self _, _, h | .field _ _ _, _, h
  | .call _ _ _ _, _, h | .construct _ _ _, _, h | .singleton _ _, _, h | .instanceOf _ _ _, _, h
  | .switch _ _ _, _, h | .other _ _ _, _, h => by
    cases h <;> rfl

theorem Expr.Reordered.keepsMarker_eq (ctx : Context) (env : Env) (declared : Option String)
    {e e' : Expr} (h : e.Reordered e') :
    e.keepsMarker ctx env declared = e'.keepsMarker ctx env declared := by
  unfold Expr.keepsMarker
  rw [Expr.staticType?_reordered ctx env e h, Expr.isNullLiteral_reordered e h]

theorem Expr.Reordered.initLocal_eq (ctx : Context) {e e' : Expr} (h : e.Reordered e')
    (decl : LocalDecl) (resolution : Resolution) (value : ValueLevel) :
    initLocal ctx decl resolution e value = initLocal ctx decl resolution e' value := by
  simp only [initLocal, Expr.staticType?_reordered ctx _ e h, h.keepsMarker_eq, h.span_eq]

theorem Arm.ListReordered.any_isDefault : ∀ {arms arms' : List Arm}, Arm.ListReordered arms arms' →
    arms.any Arm.isDefault = arms'.any Arm.isDefault
  | _, _, .refl _ => rfl
  | .mk _ _ _ :: _, _, .cons (.refl _) _ hrest => by
    rw [List.any_cons, List.any_cons, any_isDefault hrest]
    rfl
  | .mk _ _ _ :: _, _, .cons (.constant _) _ hrest => by
    rw [List.any_cons, List.any_cons, any_isDefault hrest]
    rfl

section Bodies

variable (ctx : Context)

/-- A switch over arms that agree one by one with those of another, in any order, agrees with it. -/
theorem alternatives_reordered {exhaustive : Bool} {scrutinee : Evaluated}
    {arms arms' arms'' : List Arm} (hperm : arms'.Perm arms'')
    (h : ∀ {env : Env}, env.Fresh (Declaration.ids (Arm.listDeclarations arms)) →
      List.Forall₂ (fun v w => (v env).Agrees (w env)) (runArms ctx scrutinee arms)
        (runArms ctx scrutinee arms')) :
    Walk.Agrees (Declaration.ids (Arm.listDeclarations arms))
      (Walk.alternatives exhaustive (runArms ctx scrutinee arms))
      (Walk.alternatives exhaustive (runArms ctx scrutinee arms'')) := by
  intro env hf
  refine Walk.alternatives_agrees hf.nil (runArms_evolves ctx arms scrutinee hf) (h hf) ?_
  rw [Part.runArms_eq_map, Part.runArms_eq_map]
  exact hperm.map _

mutual

/-- Expressions that differ in the order of arms have the same outcome, up to the order of what
they log. -/
theorem eval_reordered : ∀ (e e' : Expr), e.Reordered e' →
    Walk.Agrees (Declaration.ids e.declarations) (eval ctx e) (eval ctx e')
  | e, _, .refl _ => .refl _
  | .field receiver component _, _, .field h => by
    rw [eval, eval]
    exact (evalOption_reordered receiver _ h).bind_same _
  | .call receiver method args _, _, .call h hargs => by
    rw [eval, eval, Expr.declarations, Declaration.ids_append]
    exact (evalOption_reordered receiver _ h).bind (evalOption_evolves ctx receiver) fun _ =>
      (evalArgs_reordered args _ hargs _ _).bind_same _
  | .construct variant args _, _, .construct hargs => by
    rw [eval, eval]
    exact (evalArgs_reordered args _ hargs _ _).bind_same _
  | .paren inner _, _, .paren h => by
    rw [eval, eval]
    exact eval_reordered inner _ h
  | .instanceOf operand pattern _, _, .instanceOf h => by
    rw [eval, eval, Expr.declarations, Declaration.ids_append]
    exact (eval_reordered operand _ h).bind (eval_evolves ctx operand) fun _ => .refl _
  | .conditional condition thenExpr elseExpr _, _, .conditional h hthen helse => by
    rw [eval, eval, Expr.declarations, List.append_assoc, Declaration.ids_append,
      Declaration.ids_append]
    exact (eval_reordered condition _ h).bind (eval_evolves ctx condition) fun _ =>
      ((eval_reordered thenExpr _ hthen).fork (eval_reordered elseExpr _ helse)).bind_same _
  | .switch scrutinee arms _, _, .switch h harms hperm => by
    rw [eval, eval, Expr.declarations, Declaration.ids_append, ← hperm.any_eq,
      ← harms.any_isDefault]
    exact (eval_reordered scrutinee _ h).bind (eval_evolves ctx scrutinee) fun v =>
      (alternatives_reordered ctx hperm (runArms_reordered arms _ harms v)).bind_same _
  | .assign target value _, _, .assign h => by
    rw [eval, eval, h.span_eq]
    exact (eval_reordered value _ h).bind_same _
  | .other _ children _, _, .other h => by
    rw [eval, eval]
    exact (evalArgs_reordered children _ h _ _).bind_same _

theorem evalOption_reordered : ∀ (e e' : Option Expr), Expr.OptionReordered e e' →
    Walk.Agrees (Declaration.ids (Expr.optionDeclarations e)) (evalOption ctx e) (evalOption ctx e')
  | _, _, .refl _ => .refl _
  | some e, _, .some h => by
    rw [evalOption, evalOption]
    exact (eval_reordered e _ h).bind_same _

theorem evalArgs_reordered : ∀ (es es' : List Expr), Expr.ListReordered es es' →
    ∀ (required : Nat → Option Level) (index : Nat),
    Walk.Agrees (Declaration.ids (Expr.listDeclarations es)) (evalArgs ctx required index es)
      (evalArgs ctx required index es')
  | _, _, .refl _, required, index => .refl _
  | e :: rest, _, .cons h hrest, required, index => by
    rw [evalArgs, evalArgs, Expr.listDeclarations, Declaration.ids_append, h.span_eq]
    exact (eval_reordered e _ h).bind (eval_evolves ctx e) fun _ =>
      .still_bind (checkAgainst_still _ _ _ _ _) fun _ =>
        (evalArgs_reordered rest _ hrest _ _).bind_same _

/-- The arms of a switch agree one by one. -/
theorem runArms_reordered : ∀ (arms arms' : List Arm), Arm.ListReordered arms arms' →
    ∀ (scrutinee : Evaluated) {env : Env},
    env.Fresh (Declaration.ids (Arm.listDeclarations arms)) →
    List.Forall₂ (fun v w => (v env).Agrees (w env)) (runArms ctx scrutinee arms)
      (runArms ctx scrutinee arms')
  | _, _, .refl _, scrutinee, env, _ => List.forall₂_same.2 fun _ _ => .refl _
  | .mk label body _ :: rest, _, .cons h hbody hrest, scrutinee, env, hf => by
    rw [Arm.listDeclarations, Declaration.ids_append, Declaration.ids_append] at hf
    rw [runArms, runArms]
    refine .cons ?_ (runArms_reordered rest _ hrest scrutinee hf.right)
    have harm := (bindLabel_reordered label _ h scrutinee).bind
      (bindLabel_evolves ctx label scrutinee) fun _ => runBody_reordered body _ hbody
    exact harm.inScope env hf.left

theorem bindLabel_reordered : ∀ (label label' : Label), label.Reordered label' →
    ∀ (scrutinee : Evaluated),
    Walk.Agrees (Declaration.ids label.declarations) (bindLabel ctx scrutinee label)
      (bindLabel ctx scrutinee label')
  | _, _, .refl _, scrutinee => .refl _
  | .constant e, _, .constant h, scrutinee => by
    rw [bindLabel, bindLabel]
    exact (eval_reordered e _ h).bind_same _

theorem runBody_reordered : ∀ (body body' : ArmBody), body.Reordered body' →
    Walk.Agrees (Declaration.ids body.declarations) (runBody ctx body) (runBody ctx body')
  | .expr e, _, .expr h => by
    rw [runBody, runBody]
    exact (eval_reordered e _ h).bind_same _
  | .block b, _, .block h => by
    rw [runBody, runBody]
    exact (execBlock_reordered b _ h).bind_same _

/-- Statements that differ in the order of arms have the same outcome, up to the order of what
they log. -/
theorem exec_reordered : ∀ (s s' : Stmt), s.Reordered s' →
    Walk.Agrees (Declaration.ids s.declarations) (exec ctx s) (exec ctx s')
  | _, _, .refl _ => .refl _
  | .declare decl (some init) _, _, .declare h => by
    rw [exec, exec]
    refine .still_bind (resolveVariable_still ctx _ _) fun r => ?_
    simp only [h.initLocal_eq ctx decl r]
    exact ((eval_reordered init _ h).bind_same _).mono (List.sublist_cons_self ..).subperm
  | .expr e _, _, .expr h => by
    rw [exec, exec]
    exact (eval_reordered e _ h).bind_same _
  | .ifElse condition thenBranch elseBranch _, _, .ifElse h hthen helse => by
    rw [exec, exec, Stmt.declarations, List.append_assoc, Declaration.ids_append,
      Declaration.ids_append]
    exact .inScope ((eval_reordered condition _ h).bind (eval_evolves ctx condition) fun _ =>
      ((execBlock_reordered thenBranch _ hthen).fork
        (execOption_reordered elseBranch _ helse)).bind_same _)
  | .loop condition body _, _, .loop h hbody => by
    rw [exec, exec, Stmt.declarations, Declaration.ids_append]
    have hskip : Walk.Agrees [] (pure () : Walk Unit) (pure ()) := .refl _
    have hfork := (execBlock_reordered body _ hbody).fork hskip
    rw [List.append_nil] at hfork
    exact .inScope ((eval_reordered condition _ h).bind (eval_evolves ctx condition) fun _ =>
      hfork.bind_same _)
  | .switch scrutinee arms _, _, .switch h harms hperm => by
    rw [exec, exec, Stmt.declarations, Declaration.ids_append, ← hperm.any_eq,
      ← harms.any_isDefault]
    exact (eval_reordered scrutinee _ h).bind (eval_evolves ctx scrutinee) fun v =>
      (alternatives_reordered ctx hperm (runArms_reordered arms _ harms v)).bind_same _
  | .ret (some value) _, _, .ret h => by
    rw [exec, exec, h.span_eq]
    exact (eval_reordered value _ h).bind_same _
  | .block b _, _, .block h => by
    rw [exec, exec]
    exact execBlock_reordered b _ h

theorem execAll_reordered : ∀ (ss ss' : List Stmt), Stmt.ListReordered ss ss' →
    Walk.Agrees (Declaration.ids (Stmt.listDeclarations ss)) (execAll ctx ss) (execAll ctx ss')
  | _, _, .refl _ => .refl _
  | s :: rest, _, .cons h hrest => by
    rw [execAll, execAll, Stmt.listDeclarations, Declaration.ids_append]
    exact (exec_reordered s _ h).bind (exec_evolves ctx s) fun _ => execAll_reordered rest _ hrest

theorem execBlock_reordered : ∀ (b b' : Block), b.Reordered b' →
    Walk.Agrees (Declaration.ids b.declarations) (execBlock ctx b) (execBlock ctx b')
  | .mk stmts _, _, .mk h => by
    rw [execBlock, execBlock]
    exact (execAll_reordered stmts _ h).inScope

theorem execOption_reordered : ∀ (b b' : Option Block), Block.OptionReordered b b' →
    Walk.Agrees (Declaration.ids (Block.optionDeclarations b)) (execOption ctx b)
      (execOption ctx b')
  | none, _, .none => .refl _
  | some b, _, .some h => by
    rw [execOption, execOption]
    exact execBlock_reordered b _ h

end

end Bodies

/-! ## Units up to the order of arms -/

/-- The methods differ in the order of arms only. -/
structure Method.Reordered (m m' : Method) : Prop where
  header : m.header = m'.header
  body : Block.OptionReordered m.body m'.body

/-- The units differ in the order of arms only. -/
structure CompilationUnit.Reordered (u u' : CompilationUnit) : Prop where
  header : u.header = u'.header
  methods : List.Forall₂ Method.Reordered u.allMethods u'.allMethods

section Units

variable {config : Config} {u u' : CompilationUnit}

/-- Walking a method of a valid unit logs the same, up to its order, for any order of arms. -/
theorem checkMethod_reordered (hu : u.validate = .ok u) {m m' : Method} (hm : m ∈ u.allMethods)
    (h : m.Reordered m') :
    (checkMethod config.names (.ofUnit config.names u) m).Perm
      (checkMethod config.names (.ofUnit config.names u) m') := by
  obtain ⟨hheader, hbody⟩ := h
  obtain ⟨hfresh, -⟩ := CompilationUnit.fresh_ofParams hu hm (.ofUnit config.names u)
  obtain ⟨id, name, isStatic, annots, returnType, params, body, span⟩ := m
  obtain ⟨id', name', isStatic', annots', returnType', params', body', span'⟩ := m'
  -- all but the bodies is the same, so both start from the same environment in the same context
  cases hheader
  cases hbody with
  | none => exact .refl _
  | some hbody =>
    obtain ⟨hstmts⟩ := hbody
    exact ((execAll_reordered _ _ _ hstmts _ hfresh).log).cons _

/-- Reordering the arms of a unit only changes the order of what is logged. -/
theorem checkLog_reordered (hu : u.validate = .ok u) (h : u.Reordered u') :
    (checkLog config.names u).Perm (checkLog config.names u') := by
  rw [checkLog_eq, checkLog_eq, Model.log_congr h.header]
  refine List.Perm.append_left _ ?_
  have hmethods : ∀ {ms ms' : List Method}, List.Forall₂ Method.Reordered ms ms' →
      (∀ m ∈ ms, m ∈ u.allMethods) →
      (ms.flatMap (checkMethod config.names (.ofUnit config.names u))).Perm
        (ms'.flatMap (checkMethod config.names (.ofUnit config.names u'))) := by
    intro ms ms' hms hmem
    induction hms with
    | nil => exact .nil
    | cons hm _ ih =>
      rw [List.flatMap_cons, List.flatMap_cons, ← checkMethod_congr h.header]
      exact (checkMethod_reordered hu (hmem _ List.mem_cons_self) hm).append
        (ih fun m hm => hmem m (List.mem_cons_of_mem _ hm))
  exact hmethods h.methods fun m hm => hm

/-- **Reordering the arms of a valid unit reorders its findings**, and the declarations it calls
unreliable are the same. -/
theorem check_reordered (hu : u.validate = .ok u) (h : u.Reordered u') :
    (check config u).diagnostics.Perm (check config u').diagnostics ∧
      (check config u).unreliable = (check config u').unreliable :=
  check_of_perm (checkLog_reordered hu h)

/-- **Branches are walked independently and meet.** In a valid unit, wherever a part that branches
is reached, its paths meet after it, the arms of a switch each being walked from where the scrutinee
leaves; and reordering the arms of any switches changes neither the value nor the environment a part
leads to, nor the unreliable declarations of the unit, and only reorders what is found. -/
theorem branches_meet (config : Config) {u : CompilationUnit} (hu : u.validate = .ok u) :
    (∀ m ∈ u.allMethods, ∀ p env, Reached (config.context u m) m p env →
      p.Joins (config.context u m) env) ∧
    (∀ m ∈ u.allMethods, ∀ e env, Reached (config.context u m) m (.expr e) env →
      ∀ e', e.Reordered e' →
        (eval (config.context u m) e env).Agrees (eval (config.context u m) e' env)) ∧
    (∀ m ∈ u.allMethods, ∀ s env, Reached (config.context u m) m (.stmt s) env →
      ∀ s', s.Reordered s' →
        (exec (config.context u m) s env).Agrees (exec (config.context u m) s' env)) ∧
    ∀ u', u.Reordered u' →
      (check config u).diagnostics.Perm (check config u').diagnostics ∧
        (check config u).unreliable = (check config u').unreliable := by
  refine ⟨?_, ?_, ?_, fun u' h => check_reordered hu h⟩
  · intro m hm p env h
    exact Part.joins_of_fresh (h.fresh hu hm)
  · intro m hm e env h e' he
    exact eval_reordered _ e e' he env (h.fresh hu hm)
  · intro m hm s env h s' hs
    exact exec_reordered _ s s' hs env (h.fresh hu hm)

end Units

/-! ## A method that assigns in the arms of a switch -/

namespace Switching

/-- An arm that assigns a parameter to the third one. -/
def arm (label : Label) (source : UInt32) : Arm :=
  let assignment : Expr := .assign ⟨3⟩ (.var ⟨source⟩ (.spot 6)) (.spot 6)
  .mk label (.block (.mk [.expr assignment (.spot 6)] (.spot 6))) (.spot 5)

/-- The arms of the switch: one takes the closed parameter, the default the bound one. -/
def arms : List Arm :=
  [arm (.constant (.literal "int" (.spot 4))) 1, arm .default 2]

/-- The switch over the given arms. -/
def switch (arms : List Arm) : Stmt :=
  .switch (.var ⟨3⟩ (.spot 3)) arms (.spot 3)

/-- `@Closed Term m(@Closed Term x, @Bound Term y, Term z)`, which assigns to `z` in the arms of a
switch and returns it. -/
def method (arms : List Arm) : Method :=
  let param (id : UInt32) (markers : List String) : Param :=
    { id := ⟨id⟩, name := "x", type := "Term",
      annots := markers.map fun name => { name, span := .spot 1 },
      isVarargs := false, span := .spot 1 }
  { id := ⟨0⟩
    name := "m"
    isStatic := true
    annots := [{ name := "Closed", span := .spot 0 }]
    returnType := some "Term"
    params := [param 1 ["Closed"], param 2 ["Bound"], param 3 []]
    body := some (.mk [switch arms, .ret (some (.var ⟨3⟩ (.spot 8))) (.spot 7)] (.spot 2))
    span := .spot 0 }

/-- The unit that declares the method. -/
def unit (arms : List Arm) : CompilationUnit :=
  { name := "switching", types := [], methods := [method arms] }

/-- The context in which the method is walked. -/
def context : Context :=
  ({} : Config).context (unit arms) (method arms)

/-- The environment before the switch. -/
def start : Env :=
  Env.ofParams context.model (method arms).params

theorem reached : Reached context (method arms) (.stmt (switch arms)) start := by
  have hbody : Reached context (method arms) _ _ := .start rfl
  exact hbody.enter .firstStmt

theorem reordered : (unit arms).Reordered (unit arms.reverse) := by
  have hperm : arms.Perm arms.reverse := arms.reverse_perm.symm
  have hswitch : (switch arms).Reordered (switch arms.reverse) := .switch (.refl _) (.refl _) hperm
  exact ⟨rfl, .cons ⟨rfl, .some (.mk (.cons hswitch (.refl _)))⟩ .nil⟩

end Switching

/-- After the switch the third parameter is bound, the weaker of what the arms give it; what is
found when it is returned does not depend on their order. -/
theorem branches_meet_switching :
    (Switching.unit Switching.arms).validate = .ok (Switching.unit Switching.arms) ∧
      SwitchJoins Switching.context Switching.start (.var ⟨3⟩ (.spot 3)) Switching.arms
        (exec Switching.context (Switching.switch Switching.arms) Switching.start).log
        (exec Switching.context (Switching.switch Switching.arms) Switching.start).env ∧
      (exec Switching.context (Switching.switch Switching.arms) Switching.start).env.level? ⟨3⟩ =
        some (.level .bound) ∧
      (check {} (Switching.unit Switching.arms)).diagnostics.Perm
        (check {} (Switching.unit Switching.arms.reverse)).diagnostics := by
  obtain ⟨hjoins, -, -, hreordered⟩ := branches_meet {} (u := Switching.unit Switching.arms) rfl
  exact ⟨rfl, hjoins _ List.mem_cons_self _ _ Switching.reached, by decide,
    (hreordered _ Switching.reordered).1⟩

end Closedness
