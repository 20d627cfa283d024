import Closedness.Proofs.Preservation
import Closedness.Proofs.Validation

/-!
# The points of a method body

A `Part` of a body is what one call of the walk works on: an expression, arguments, a pattern, an
arm, a statement, together with what is passed to it besides the environment. `Part.run` is that
call. `Enters ctx p env q env'` says that walking `p` from `env` walks `q` from `env'`, and
`Reached` collects what walking a method comes to: every point of the walk is the start or the end
of a part that is reached.

What holds at the start of a body and is handed on to the parts that a part enters holds wherever
the walk gets to. The facts handed on here (`Point`) are that the declarations to come are new,
that every variable is in a state that a discipline allows, and that pinned variables have the
level they are pinned at.
-/

namespace Closedness

/-- A part of a method body, with what reaches it besides the environment. -/
inductive Part where
  | expr (expr : Expr)
  /-- Expressions in order, judged by what their positions, from `index` on, require. -/
  | args (required : Nat → Option Level) (index : Nat) (args : List Expr)
  | pattern (value : Evaluated) (pattern : Pattern)
  /-- The patterns of a record's components, from position `index` on. -/
  | components (level : Nat → ValueLevel) (index : Nat) (components : List Pattern)
  | arm (scrutinee : Evaluated) (arm : Arm)
  | label (scrutinee : Evaluated) (label : Label)
  | body (body : ArmBody)
  | stmt (stmt : Stmt)
  /-- Two paths that join; without a second block control may pass by the first. -/
  | branches (thenBranch : Block) (elseBranch : Option Block)
  | block (block : Block)
  | stmts (stmts : List Stmt)

namespace Part

/-- The walk through a part; an expression gives its level, and so does the body of an arm if it
is an expression. -/
def run (ctx : Context) : Part → Walk (Option ValueLevel)
  | .expr e => return some (← eval ctx e).level
  | .args required index es => do
    let _ ← evalArgs ctx required index es
    return none
  | .pattern value p => do
    bindPattern ctx value.level value.built p
    return none
  | .components level index ps => do
    bindComponents ctx level index ps
    return none
  | .arm scrutinee (.mk l b _) => Walk.inScope (do bindLabel ctx scrutinee l; runBody ctx b)
  | .label scrutinee l => do
    bindLabel ctx scrutinee l
    return none
  | .body b => runBody ctx b
  | .stmt s => do
    exec ctx s
    return none
  | .branches thenBranch elseBranch => do
    let _ ← Walk.fork (execBlock ctx thenBranch) (execOption ctx elseBranch)
    return none
  | .block b => do
    execBlock ctx b
    return none
  | .stmts ss => do
    execAll ctx ss
    return none

def declarations : Part → List Declaration
  | .expr e => e.declarations
  | .args _ _ es => Expr.listDeclarations es
  | .pattern _ p => p.declarations
  | .components _ _ ps => Pattern.listDeclarations ps
  | .arm _ (.mk l b _) => l.declarations ++ b.declarations
  | .label _ l => l.declarations
  | .body b => b.declarations
  | .stmt s => s.declarations
  | .branches thenBranch elseBranch =>
    thenBranch.declarations ++ Block.optionDeclarations elseBranch
  | .block b => b.declarations
  | .stmts ss => Stmt.listDeclarations ss

def assigned : Part → List DeclId
  | .expr e => e.assigned
  | .args _ _ es => Expr.listAssigned es
  | .pattern _ _ | .components _ _ _ => []
  | .arm _ (.mk l b _) => l.assigned ++ b.assigned
  | .label _ l => l.assigned
  | .body b => b.assigned
  | .stmt s => s.assigned
  | .branches thenBranch elseBranch => thenBranch.assigned ++ Block.optionAssigned elseBranch
  | .block b => b.assigned
  | .stmts ss => Stmt.listAssigned ss

/-- The arms of a switch are walked as parts of their own. -/
theorem runArms_eq_map (ctx : Context) (scrutinee : Evaluated) (arms : List Arm) :
    runArms ctx scrutinee arms = arms.map fun a => (Part.arm scrutinee a).run ctx := by
  induction arms with
  | nil => rw [runArms, List.map_nil]
  | cons a rest ih =>
    obtain ⟨label, body, span⟩ := a
    rw [runArms, List.map_cons, ih]
    rfl

end Part

/-! ## Reaching parts -/

/-- Walking one part of a body from an environment walks another from another environment. -/
inductive Enters (ctx : Context) : Part → Env → Part → Env → Prop
  -- expressions
  | fieldReceiver {receiver component span env} :
    Enters ctx (.expr (.field (some receiver) component span)) env (.expr receiver) env
  | callReceiver {receiver method args span env} :
    Enters ctx (.expr (.call (some receiver) method args span)) env (.expr receiver) env
  | callArgs {receiver method args span env} :
    Enters ctx (.expr (.call receiver method args span)) env
      (.args (ctx.model.argRequirement? method) 0 args) (evalOption ctx receiver env).env
  | constructArgs {variant args span env} :
    Enters ctx (.expr (.construct variant args span)) env
      (.args (ctx.model.componentRequirement? variant) 0 args) env
  | paren {inner span env} : Enters ctx (.expr (.paren inner span)) env (.expr inner) env
  | operand {operand pattern span env} :
    Enters ctx (.expr (.instanceOf operand pattern span)) env (.expr operand) env
  | test {operand pattern span env} :
    Enters ctx (.expr (.instanceOf operand pattern span)) env
      (.pattern (eval ctx operand env).value pattern) (eval ctx operand env).env
  | condition {condition thenExpr elseExpr span env} :
    Enters ctx (.expr (.conditional condition thenExpr elseExpr span)) env (.expr condition) env
  | thenExpr {condition thenExpr elseExpr span env} :
    Enters ctx (.expr (.conditional condition thenExpr elseExpr span)) env
      (.expr thenExpr) (eval ctx condition env).env
  | elseExpr {condition thenExpr elseExpr span env} :
    Enters ctx (.expr (.conditional condition thenExpr elseExpr span)) env
      (.expr elseExpr) (eval ctx condition env).env
  | scrutinee {scrutinee arms span env} :
    Enters ctx (.expr (.switch scrutinee arms span)) env (.expr scrutinee) env
  | arm {scrutinee arms span env arm} (harm : arm ∈ arms) :
    Enters ctx (.expr (.switch scrutinee arms span)) env
      (.arm (eval ctx scrutinee env).value arm) (eval ctx scrutinee env).env
  | assignValue {target value span env} :
    Enters ctx (.expr (.assign target value span)) env (.expr value) env
  | children {type children span env} :
    Enters ctx (.expr (.other type children span)) env (.args (fun _ => none) 0 children) env
  | firstArg {required index e rest env} :
    Enters ctx (.args required index (e :: rest)) env (.expr e) env
  | restArgs {required index e rest env} :
    Enters ctx (.args required index (e :: rest)) env
      (.args required (index + 1) rest) (eval ctx e env).env
  -- patterns
  | components {value variant components span env} :
    Enters ctx (.pattern value (.record variant components span)) env
      (.components (ctx.model.matchedLevel variant
        (value.level.narrow (ctx.model.variantLevel variant)) value.built) 0 components) env
  | firstComponent {level index p rest env} :
    Enters ctx (.components level index (p :: rest)) env (.pattern { level := level index } p) env
  | restComponents {level index p rest env} :
    Enters ctx (.components level index (p :: rest)) env (.components level (index + 1) rest)
      (bindPattern ctx (level index) none p env).env
  -- arms
  | label {scrutinee label body span env} :
    Enters ctx (.arm scrutinee (.mk label body span)) env (.label scrutinee label) env.push
  | body {scrutinee label body span env} :
    Enters ctx (.arm scrutinee (.mk label body span)) env
      (.body body) (bindLabel ctx scrutinee label env.push).env
  | labelPattern {scrutinee pattern env} :
    Enters ctx (.label scrutinee (.pattern pattern)) env (.pattern scrutinee pattern) env
  | labelConstant {scrutinee e env} :
    Enters ctx (.label scrutinee (.constant e)) env (.expr e) env
  | bodyExpr {e env} : Enters ctx (.body (.expr e)) env (.expr e) env
  | bodyBlock {block env} : Enters ctx (.body (.block block)) env (.block block) env
  -- statements
  | init {decl e span env} :
    Enters ctx (.stmt (.declare decl (some e) span)) env (.expr e) env
  | stmtExpr {e span env} : Enters ctx (.stmt (.expr e span)) env (.expr e) env
  | ifCondition {condition thenBranch elseBranch span env} :
    Enters ctx (.stmt (.ifElse condition thenBranch elseBranch span)) env
      (.expr condition) env.push
  | ifBranches {condition thenBranch elseBranch span env} :
    Enters ctx (.stmt (.ifElse condition thenBranch elseBranch span)) env
      (.branches thenBranch elseBranch) (eval ctx condition env.push).env
  | loopCondition {condition body span env} :
    Enters ctx (.stmt (.loop condition body span)) env (.expr condition) env.push
  | loopBody {condition body span env} :
    Enters ctx (.stmt (.loop condition body span)) env
      (.branches body none) (eval ctx condition env.push).env
  | stmtScrutinee {scrutinee arms span env} :
    Enters ctx (.stmt (.switch scrutinee arms span)) env (.expr scrutinee) env
  | stmtArm {scrutinee arms span env arm} (harm : arm ∈ arms) :
    Enters ctx (.stmt (.switch scrutinee arms span)) env
      (.arm (eval ctx scrutinee env).value arm) (eval ctx scrutinee env).env
  | returned {value span env} :
    Enters ctx (.stmt (.ret (some value) span)) env (.expr value) env
  | stmtBlock {block span env} : Enters ctx (.stmt (.block block span)) env (.block block) env
  | thenBranch {thenBranch elseBranch env} :
    Enters ctx (.branches thenBranch elseBranch) env (.block thenBranch) env
  | elseBranch {thenBranch elseBranch env} :
    Enters ctx (.branches thenBranch (some elseBranch)) env (.block elseBranch) env
  | blockStmts {stmts span env} :
    Enters ctx (.block (.mk stmts span)) env (.stmts stmts) env.push
  | firstStmt {s rest env} : Enters ctx (.stmts (s :: rest)) env (.stmt s) env
  | restStmts {s rest env} :
    Enters ctx (.stmts (s :: rest)) env (.stmts rest) (exec ctx s env).env

/-- The context in which the analysis of a unit walks one of its methods. -/
abbrev Config.context (config : Config) (u : CompilationUnit) (m : Method) : Context :=
  { Context.ofMethod config.names (.ofUnit config.names u) m with options := config.options }

/-- Walking the method, in a context, walks a part of its body from an environment. -/
inductive Reached (ctx : Context) (m : Method) : Part → Env → Prop
  | start {body} (hbody : m.body = some body) :
    Reached ctx m (.stmts body.stmts) (Env.ofParams ctx.model m.params)
  | enter {p env q env'} (h : Reached ctx m p env) (hstep : Enters ctx p env q env') :
    Reached ctx m q env'

/-! ## What parts do -/

/-- Walking a part declares and assigns to no variables but its own. -/
theorem Part.run_evolves (ctx : Context) (p : Part) :
    Walk.Evolves (Declaration.ids p.declarations) p.assigned (p.run ctx) := by
  cases p with
  | expr e => exact (eval_evolves ctx e).bind_still fun _ => .pure _
  | args required index es => exact (evalArgs_evolves ctx es _ _).bind_still fun _ => .pure _
  | pattern value p => exact (bindPattern_evolves ctx p _ _).bind_still fun _ => .pure _
  | components level index ps =>
    exact (bindComponents_evolves ctx ps _ _).bind_still fun _ => .pure _
  | arm scrutinee a =>
    obtain ⟨label, body, span⟩ := a
    rw [declarations, Declaration.ids_append]
    exact ((bindLabel_evolves ctx label scrutinee).bind fun _ => runBody_evolves ctx body).inScope
  | label scrutinee l => exact (bindLabel_evolves ctx l scrutinee).bind_still fun _ => .pure _
  | body b => exact runBody_evolves ctx b
  | stmt s => exact (exec_evolves ctx s).bind_still fun _ => .pure _
  | branches thenBranch elseBranch =>
    rw [declarations, Declaration.ids_append]
    exact ((execBlock_evolves ctx thenBranch).fork (execOption_evolves ctx elseBranch)).bind_still
      fun _ => .pure _
  | block b => exact (execBlock_evolves ctx b).bind_still fun _ => .pure _
  | stmts ss => exact (execAll_evolves ctx ss).bind_still fun _ => .pure _

/-- What reaches a part besides the environment is allowed. -/
def Part.Receives (D : Discipline) : Part → Prop
  | .args required _ _ => ∀ i r, required i = some r → r ≠ .inherit ∧ D.binding (.level r)
  | .pattern value _ | .arm value _ | .label value _ => D.Value value
  | .components level _ _ => ∀ i, D.level (level i)
  | .expr _ | .body _ | .stmt _ | .branches _ _ | .block _ | .stmts _ => True

section Within

variable {D : Discipline} {ctx : Context} (hctx : D.Within ctx)
include hctx

/-- Walking a part stays inside a discipline that allows what it declares and receives. -/
theorem Part.run_keeps (p : Part) (hr : p.Receives D) (h : D.Allows ctx.names p.declarations) :
    Walk.Keeps D (Walk.LevelOk D) (p.run ctx) := by
  have hnone : ∀ {α : Type} {V : α → Prop} {w : Walk α}, Walk.Keeps D V w →
      Walk.Keeps D (Walk.LevelOk D) (w >>= fun _ => pure none) := fun hw =>
    hw.bind fun _ _ => .pure fun _ e => by cases e
  cases p with
  | expr e =>
    exact (eval_keeps hctx e h).bind fun v hv => .pure fun _ e => Option.some.inj e ▸ hv.level
  | args required index es => exact hnone (evalArgs_keeps hctx es h hr index)
  | pattern value p => exact hnone (bindPattern_keeps hctx p h hr.level hr.built)
  | components level index ps => exact hnone (bindComponents_keeps hctx ps h hr index)
  | arm scrutinee a =>
    obtain ⟨label, body, span⟩ := a
    rw [declarations, Discipline.allows_append] at h
    exact ((bindLabel_keeps hctx label h.1 hr).bind fun _ _ => runBody_keeps hctx body h.2).inScope
  | label scrutinee l => exact hnone (bindLabel_keeps hctx l h hr)
  | body b => exact runBody_keeps hctx b h
  | stmt s => exact hnone (exec_keeps hctx s h)
  | branches thenBranch elseBranch =>
    rw [declarations, Discipline.allows_append] at h
    exact hnone ((execBlock_keeps hctx thenBranch h.1).fork (execOption_keeps hctx elseBranch h.2))
  | block b => exact hnone (execBlock_keeps hctx b h)
  | stmts ss => exact hnone (execAll_keeps hctx ss h)

end Within

/-! ## What holds at every point -/

/-- What holds before a walk that declares `ds`: the declarations are allowed and new, the
variables are in allowed states, and those that are pinned have the level they are pinned at. -/
structure Point (D : Discipline) (ctx : Context) (ds : List Declaration) (env : Env) : Prop where
  allows : D.Allows ctx.names ds
  fresh : env.Fresh (Declaration.ids ds)
  states : env.All D.State
  pins : ∀ {id s}, env.get? id = some s → s.HoldsPin

namespace Point

variable {D : Discipline} {ctx : Context} {ds ds' : List Declaration} {env : Env} {α : Type}

/-- A walk that declares less may start from the same point. -/
theorem sublist (h : Point D ctx ds env) (hds : ds'.Sublist ds) : Point D ctx ds' env where
  allows d hd := h.allows d (hds.subset hd)
  fresh := h.fresh.subperm (hds.map Declaration.id).subperm
  states := h.states
  pins := h.pins

theorem left (h : Point D ctx (ds ++ ds') env) : Point D ctx ds env :=
  h.sublist (List.sublist_append_left ..)

theorem right (h : Point D ctx (ds ++ ds') env) : Point D ctx ds' env :=
  h.sublist (List.sublist_append_right ..)

theorem push (h : Point D ctx ds env) : Point D ctx ds env.push where
  allows := h.allows
  fresh := h.fresh.push
  states := h.states.push
  pins hs := h.pins hs

/-- After a walk through the first declarations the same holds of those that follow. -/
theorem after (h : Point D ctx (ds ++ ds') env) {w : Walk α} {assigned : List DeclId}
    {V : α → Prop} (hw : w.Evolves (Declaration.ids ds) assigned)
    (hk : D.Allows ctx.names ds → w.Keeps D V) :
    Point D ctx ds' (w env).env ∧ V (w env).value := by
  have hstep := hw env h.left.fresh
  obtain ⟨hvalue, hstates, -⟩ := hk h.left.allows env h.states
  refine ⟨⟨h.right.allows, hstep.fresh ?_, hstates, hstep.holdsPin h.pins⟩, hvalue⟩
  rw [← Declaration.ids_append]
  exact h.fresh

end Point

/-- The declarations of an arm stand together in those of its switch. -/
theorem Part.arm_sublist (scrutinee : Evaluated) {arms : List Arm} {arm : Arm} (h : arm ∈ arms) :
    (Part.arm scrutinee arm).declarations.Sublist (Arm.listDeclarations arms) := by
  induction arms with
  | nil => cases h
  | cons first rest ih =>
    obtain ⟨label, body, span⟩ := first
    rw [Arm.listDeclarations]
    rcases List.mem_cons.1 h with rfl | h
    · exact List.sublist_append_left ..
    · exact (ih h).trans (List.sublist_append_right ..)

section Points

variable {D : Discipline} {ctx : Context} {p q : Part} {env env' : Env}

/-- What holds before a part holds before the parts it enters. -/
theorem Enters.point (hctx : D.Within ctx) (h : Enters ctx p env q env') (hr : p.Receives D)
    (hp : Point D ctx p.declarations env) : Point D ctx q.declarations env' ∧ q.Receives D := by
  -- a part entered later starts after what comes before it, which leaves its declarations new
  cases h with
  | fieldReceiver => exact ⟨hp, trivial⟩
  | callReceiver => exact ⟨hp.left, trivial⟩
  | callArgs =>
    obtain ⟨hargs, -⟩ := hp.after (evalOption_evolves ctx _) (evalOption_keeps hctx _)
    exact ⟨hargs, fun _ _ => hctx.argRequirement?⟩
  | constructArgs => exact ⟨hp, fun _ _ => hctx.componentRequirement?⟩
  | paren => exact ⟨hp, trivial⟩
  | operand => exact ⟨hp.left, trivial⟩
  | test => exact hp.after (eval_evolves ctx _) (eval_keeps hctx _)
  | condition => exact ⟨hp.left.left, trivial⟩
  | thenExpr => exact ⟨(hp.left.after (eval_evolves ctx _) (eval_keeps hctx _)).1, trivial⟩
  | elseExpr =>
    rw [Part.declarations, Expr.declarations, List.append_assoc] at hp
    exact ⟨(hp.after (eval_evolves ctx _) (eval_keeps hctx _)).1.right, trivial⟩
  | scrutinee | stmtScrutinee => exact ⟨hp.left, trivial⟩
  | arm harm | stmtArm harm =>
    obtain ⟨harms, hvalue⟩ := hp.after (eval_evolves ctx _) (eval_keeps hctx _)
    exact ⟨harms.sublist (Part.arm_sublist _ harm), hvalue⟩
  | assignValue => exact ⟨hp, trivial⟩
  | children => exact ⟨hp, fun _ _ h => nomatch h⟩
  | firstArg => exact ⟨hp.left, trivial⟩
  | restArgs => exact ⟨(hp.after (eval_evolves ctx _) (eval_keeps hctx _)).1, hr⟩
  | components => exact ⟨hp, hctx.matchedLevel _ (hctx.narrow _ hr.level) hr.built⟩
  | firstComponent => exact ⟨hp.left, .ofLevel (hr _)⟩
  | restComponents =>
    exact ⟨(hp.after (bindPattern_evolves ctx _ _ _)
      fun h => bindPattern_keeps hctx _ h (hr _) Discipline.not_built).1, hr⟩
  | label => exact ⟨hp.left.push, hr⟩
  | body =>
    exact ⟨(hp.push.after (bindLabel_evolves ctx _ _) fun h => bindLabel_keeps hctx _ h hr).1,
      trivial⟩
  | labelPattern => exact ⟨hp, hr⟩
  | labelConstant | bodyExpr | bodyBlock | stmtExpr | returned | stmtBlock =>
    exact ⟨hp, trivial⟩
  | init => exact ⟨hp.sublist (List.sublist_cons_self ..), trivial⟩
  | ifCondition => exact ⟨hp.left.left.push, trivial⟩
  | ifBranches =>
    rw [Part.declarations, Stmt.declarations, List.append_assoc] at hp
    exact ⟨(hp.push.after (eval_evolves ctx _) (eval_keeps hctx _)).1, trivial⟩
  | loopCondition => exact ⟨hp.left.push, trivial⟩
  | loopBody =>
    rw [Part.declarations, Block.optionDeclarations, List.append_nil]
    exact ⟨(hp.push.after (eval_evolves ctx _) (eval_keeps hctx _)).1, trivial⟩
  | thenBranch => exact ⟨hp.left, trivial⟩
  | elseBranch => exact ⟨hp.right, trivial⟩
  | blockStmts => exact ⟨hp.push, trivial⟩
  | firstStmt => exact ⟨hp.left, trivial⟩
  | restStmts => exact ⟨(hp.after (exec_evolves ctx _) (exec_keeps hctx _)).1, trivial⟩

/-- What holds before a part holds after it, and the level it gives is allowed. -/
theorem Point.run (hctx : D.Within ctx) (hp : Point D ctx p.declarations env) (hr : p.Receives D) :
    Point D ctx [] (p.run ctx env).env ∧ Walk.LevelOk D (p.run ctx env).value := by
  rw [← List.append_nil p.declarations] at hp
  exact hp.after (p.run_evolves ctx) (p.run_keeps hctx hr)

variable {config : Config} {u : CompilationUnit} {m : Method}

/-- The tables of a unit whose declarations are allowed stay within the discipline. -/
theorem Discipline.within_context (h : D.Allows config.names u.declarations) (m : Method) :
    D.Within (config.context u m) :=
  (within_ofMethod h.admits m).withOptions config.options

/-- A body starts at a point. -/
theorem Point.start (hu : u.validate = .ok u) (hD : D.Allows config.names u.declarations)
    (hm : m ∈ u.allMethods) {body : Block} (hbody : m.body = some body) :
    Point D (config.context u m) (Stmt.listDeclarations body.stmts)
      (Env.ofParams (config.context u m).model m.params) := by
  obtain ⟨hfresh, hparams⟩ := CompilationUnit.fresh_ofParams hu hm (config.context u m).model
  refine ⟨Discipline.allows_body hD.admits hm hbody, ?_,
    Discipline.all_ofParams (Discipline.within_ofMethod hD.admits m) m.params, ?_⟩
  · rw [hbody] at hfresh
    obtain ⟨stmts, span⟩ := body
    exact hfresh
  · exact (Env.ofParams_evolves _ hparams).holdsPin fun h => nomatch h

/-- Wherever the walk through a method of a valid unit gets to, the declarations to come are new
and the variables are in order. -/
theorem Reached.point (hu : u.validate = .ok u) (hD : D.Allows config.names u.declarations)
    (hm : m ∈ u.allMethods) (h : Reached (config.context u m) m p env) :
    Point D (config.context u m) p.declarations env ∧ p.Receives D := by
  induction h with
  | start hbody => exact ⟨.start hu hD hm hbody, trivial⟩
  | enter _ hstep ih => exact hstep.point (Discipline.within_context hD m) ih.2 ih.1

end Points

end Closedness
