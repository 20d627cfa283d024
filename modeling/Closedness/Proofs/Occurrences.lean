import Closedness.Proofs.Destructuring
import Closedness.Proofs.Variables
import Mathlib.Data.List.Nodup
import Mathlib.Data.List.Pairwise
import Mathlib.Logic.Relation

/-!
# Where variables are declared

A part of a body declares at most one variable by itself (`Part.own?`), and leaves the others to the
parts that it enters: its declarations are its own and those of the parts it enters, each once
(`Part.declarations_eq`). In a valid unit no id is declared twice, so of the parts that a part
enters at most one declares a given variable (`Enters.unique`). The parts that do lie on one path
from the start of the body to the declaration itself, which is hence reached once, from one
environment (`Reached.own_unique`).
-/

namespace Closedness

/-! ## The parts that a part enters -/

namespace Part

/-- The variable that a part declares by itself. -/
def own? : Part → Option Declaration
  | .stmt (.declare decl _ _) => some decl.declaration
  | .pattern _ p => p.var?.map PatternVar.declaration
  | _ => none

theorem own?_pattern {value : Evaluated} {p : Pattern} {var : PatternVar}
    (h : p.var? = some var) : (Part.pattern value p).own? = some var.declaration := by
  rw [own?, h, Option.map_some]

/-- The parts that a part enters from an environment, in the order of the source. -/
def entered (ctx : Context) (env : Env) : Part → List (Part × Env)
  | .expr (.null _) | .expr (.literal _ _) | .expr (.var _ _) | .expr (.self _)
  | .expr (.singleton _ _) => []
  | .expr (.field receiver _ _) => receiver.toList.map fun e => (.expr e, env)
  | .expr (.call receiver method es _) =>
    receiver.toList.map (fun e => (.expr e, env))
      ++ [(.args (ctx.model.argRequirement? method) 0 es, (evalOption ctx receiver env).env)]
  | .expr (.construct variant es _) =>
    [(.args (ctx.model.componentRequirement? variant) 0 es, env)]
  | .expr (.paren inner _) => [(.expr inner, env)]
  | .expr (.instanceOf operand p _) =>
    [(.expr operand, env), (.pattern (eval ctx operand env).value p, (eval ctx operand env).env)]
  | .expr (.conditional condition thenExpr elseExpr _) =>
    [(.expr condition, env), (.expr thenExpr, (eval ctx condition env).env),
      (.expr elseExpr, (eval ctx condition env).env)]
  | .expr (.switch scrutinee arms _) | .stmt (.switch scrutinee arms _) =>
    (.expr scrutinee, env) ::
      arms.map fun a => (.arm (eval ctx scrutinee env).value a, (eval ctx scrutinee env).env)
  | .expr (.assign _ value _) => [(.expr value, env)]
  | .expr (.other _ children _) => [(.args (fun _ => none) 0 children, env)]
  | .args _ _ [] => []
  | .args required index (e :: rest) =>
    [(.expr e, env), (.args required (index + 1) rest, (eval ctx e env).env)]
  | .pattern value (.record variant ps _) =>
    [(.components (ctx.model.matchedLevel variant
      (value.level.narrow (ctx.model.variantLevel variant)) value.built) 0 ps, env)]
  | .pattern _ (.typeTest _ _ _) | .pattern _ (.variable _ _) | .pattern _ (.wildcard _) => []
  | .components _ _ [] => []
  | .components level index (p :: rest) =>
    [(.pattern { level := level index } p, env),
      (.components level (index + 1) rest, (bindPattern ctx (level index) none p env).env)]
  | .arm scrutinee (.mk l b _) =>
    [(.label scrutinee l, env.push), (.body b, (bindLabel ctx scrutinee l env.push).env)]
  | .label scrutinee (.pattern p) => [(.pattern scrutinee p, env)]
  | .label _ (.constant e) => [(.expr e, env)]
  | .label _ .default => []
  | .body (.expr e) => [(.expr e, env)]
  | .body (.block b) => [(.block b, env)]
  | .stmt (.declare _ init _) => init.toList.map fun e => (.expr e, env)
  | .stmt (.expr e _) => [(.expr e, env)]
  | .stmt (.ifElse condition thenBranch elseBranch _) =>
    [(.expr condition, env.push),
      (.branches thenBranch elseBranch, (eval ctx condition env.push).env)]
  | .stmt (.loop condition b _) =>
    [(.expr condition, env.push), (.branches b none, (eval ctx condition env.push).env)]
  | .stmt (.ret value _) => value.toList.map fun e => (.expr e, env)
  | .stmt (.block b _) => [(.block b, env)]
  | .branches thenBranch elseBranch =>
    (.block thenBranch, env) :: elseBranch.toList.map fun b => (.block b, env)
  | .block (.mk ss _) => [(.stmts ss, env.push)]
  | .stmts [] => []
  | .stmts (s :: rest) => [(.stmt s, env), (.stmts rest, (exec ctx s env).env)]

theorem flatMap_arm_declarations (scrutinee : Evaluated) (arms : List Arm) :
    (arms.flatMap fun a => (Part.arm scrutinee a).declarations) = Arm.listDeclarations arms := by
  rw [Arm.listDeclarations_eq]
  exact List.flatMap_congr fun a _ => by cases a; rfl

/-- The declarations of a part are its own and those of the parts it enters. -/
theorem declarations_eq (ctx : Context) (env : Env) (p : Part) :
    p.declarations =
      p.own?.toList ++ (p.entered ctx env).flatMap fun q => q.1.declarations := by
  cases p with
  | expr e =>
    cases e with
    | switch scrutinee arms span =>
      simp only [entered, List.flatMap_cons, List.flatMap_map, flatMap_arm_declarations]
      rfl
    | _ =>
      simp [declarations, own?, entered, Expr.declarations, Expr.optionDeclarations_eq,
        List.flatMap_map]
  | args required index es =>
    cases es <;> simp [declarations, own?, entered, Expr.listDeclarations]
  | pattern value p =>
    rcases p with ⟨_, _ | _, _⟩ | _ | _ | _ <;>
      simp [declarations, own?, entered, Pattern.declarations, Pattern.var?]
  | components level index ps =>
    cases ps <;> simp [declarations, own?, entered, Pattern.listDeclarations]
  | arm scrutinee a =>
    cases a
    simp [declarations, own?, entered]
  | label scrutinee l => cases l <;> simp [declarations, own?, entered, Label.declarations]
  | body b => cases b <;> simp [declarations, own?, entered, ArmBody.declarations]
  | stmt s =>
    cases s with
    | switch scrutinee arms span =>
      simp only [entered, List.flatMap_cons, List.flatMap_map, flatMap_arm_declarations]
      rfl
    | _ =>
      simp [declarations, own?, entered, Stmt.declarations, Expr.optionDeclarations_eq,
        Block.optionDeclarations_eq, List.flatMap_map]
  | branches thenBranch elseBranch =>
    simp [declarations, own?, entered, Block.optionDeclarations_eq, List.flatMap_map]
  | block b =>
    cases b
    simp [declarations, own?, entered, Block.declarations]
  | stmts ss => cases ss <;> simp [declarations, own?, entered, Stmt.listDeclarations]

theorem arm_assigned (scrutinee : Evaluated) {arms : List Arm} {arm : Arm} (h : arm ∈ arms) :
    (Part.arm scrutinee arm).assigned ⊆ Arm.listAssigned arms := by
  induction arms with
  | nil => cases h
  | cons first rest ih =>
    obtain ⟨label, body, span⟩ := first
    rw [Arm.listAssigned]
    rcases List.mem_cons.1 h with rfl | h
    · exact List.subset_append_left ..
    · exact List.subset_append_of_subset_right _ (ih h)

end Part

section Entering

variable {ctx : Context} {p q : Part} {env env' : Env}

/-- The parts that are entered are among those listed. -/
theorem Enters.mem_entered (h : Enters ctx p env q env') : (q, env') ∈ p.entered ctx env := by
  cases h with
  | arm harm | stmtArm harm => exact List.mem_cons_of_mem _ (List.mem_map_of_mem harm)
  | _ => simp [Part.entered]

/-- What a part declares is declared by the part that enters it. -/
theorem Enters.declarations_subset (h : Enters ctx p env q env') :
    q.declarations ⊆ p.declarations := by
  intro d hd
  rw [p.declarations_eq ctx env]
  exact List.mem_append_right _ (List.mem_flatMap.2 ⟨_, h.mem_entered, hd⟩)

/-- What a part declares by itself is not declared by the parts it enters. -/
theorem Enters.own_not_mem (hnodup : (Declaration.ids p.declarations).Nodup) {d : Declaration}
    (hd : p.own? = some d) (h : Enters ctx p env q env') :
    d.id ∉ Declaration.ids q.declarations := by
  intro hid
  rw [p.declarations_eq ctx env, hd, Option.toList_some, List.singleton_append,
    Declaration.ids_cons, List.nodup_cons] at hnodup
  obtain ⟨d', hd', hsame⟩ := List.mem_map.1 hid
  refine hnodup.1 (hsame ▸ List.mem_map_of_mem ?_)
  exact List.mem_flatMap.2 ⟨_, h.mem_entered, hd'⟩

/-- Of the parts that a part enters at most one declares a given variable. -/
theorem Enters.unique {q' : Part} {env'' : Env} (hnodup : (Declaration.ids p.declarations).Nodup)
    {id : DeclId} (h : Enters ctx p env q env') (hid : id ∈ Declaration.ids q.declarations)
    (h' : Enters ctx p env q' env'') (hid' : id ∈ Declaration.ids q'.declarations) :
    (q, env') = (q', env'') := by
  rw [p.declarations_eq ctx env, Declaration.ids_append, List.nodup_append] at hnodup
  have hentered := hnodup.2.1
  rw [Declaration.ids, List.map_flatMap, List.nodup_flatMap] at hentered
  by_contra hne
  have : Std.Symm (Function.onFun List.Disjoint fun a : Part × Env =>
      a.1.declarations.map Declaration.id) := ⟨fun _ _ h _ hid hid' => h hid' hid⟩
  exact hentered.2.forall h.mem_entered h'.mem_entered hne hid hid'

/-- What a part assigns to is assigned to by the part that enters it. -/
theorem Enters.assigned_subset (h : Enters ctx p env q env') : q.assigned ⊆ p.assigned := by
  cases h with
  | fieldReceiver | constructArgs | paren | operand | children | labelPattern | labelConstant
  | bodyExpr | bodyBlock | init | stmtExpr | returned | stmtBlock | blockStmts =>
    exact List.Subset.refl _
  | test | components | firstComponent | restComponents => exact List.nil_subset _
  | callReceiver | condition | scrutinee | assignValue | firstArg | label | ifCondition
  | loopCondition | stmtScrutinee | thenBranch | firstStmt => exact List.subset_append_left ..
  | callArgs | restArgs | body | ifBranches | elseBranch | restStmts =>
    exact List.subset_append_right ..
  | thenExpr => exact List.subset_append_of_subset_right _ (List.subset_append_left ..)
  | elseExpr => exact List.subset_append_of_subset_right _ (List.subset_append_right ..)
  | loopBody =>
    rw [Part.assigned, Part.assigned, Block.optionAssigned, List.append_nil]
    exact List.subset_append_right ..
  | arm harm | stmtArm harm =>
    exact List.subset_append_of_subset_right _ (Part.arm_assigned _ harm)

end Entering

/-! ## Reached declarations -/

section Reached

variable {config : Config} {u : CompilationUnit} {m : Method} {p q : Part} {env env' : Env}

/-- A part that is reached declares only what its body does. -/
theorem Reached.declarations_subset {ctx : Context} (h : Reached ctx m p env) :
    p.declarations ⊆ Block.optionDeclarations m.body := by
  induction h with
  | @start body hbody =>
    obtain ⟨stmts, span⟩ := body
    rw [hbody]
    exact List.Subset.refl _
  | enter _ hstep ih => exact List.Subset.trans hstep.declarations_subset ih

theorem Reached.assigned_subset {ctx : Context} (h : Reached ctx m p env) :
    p.assigned ⊆ Block.optionAssigned m.body := by
  induction h with
  | @start body hbody =>
    obtain ⟨stmts, span⟩ := body
    rw [hbody]
    exact List.Subset.refl _
  | enter _ hstep ih => exact List.Subset.trans hstep.assigned_subset ih

/-- A part that is reached in a valid unit declares nothing twice. -/
theorem Reached.nodup_declarations (hu : u.validate = .ok u) (hm : m ∈ u.allMethods)
    (h : Reached (config.context u m) m p env) : (Declaration.ids p.declarations).Nodup :=
  (List.nodup_append.1 (h.fresh hu hm)).1

/-- A step of the walk to a part that declares the variable, from one that declares no variable
twice. -/
def Approaches (ctx : Context) (id : DeclId) (a b : Part × Env) : Prop :=
  (Declaration.ids a.1.declarations).Nodup ∧ Enters ctx a.1 a.2 b.1 b.2 ∧
    id ∈ Declaration.ids b.1.declarations

/-- There is at most one way on towards the declaration. -/
theorem Approaches.rightUnique (ctx : Context) (id : DeclId) :
    Relator.RightUnique (Approaches ctx id) :=
  fun _ _ _ h h' => h.2.1.unique h.1 h.2.2 h'.2.1 h'.2.2

/-- The way from the start of a body to a part that declares a variable leads through parts that
declare it. -/
theorem Reached.approached (hu : u.validate = .ok u) (hm : m ∈ u.allMethods)
    (h : Reached (config.context u m) m p env) {id : DeclId}
    (hid : id ∈ Declaration.ids p.declarations) {body : Block} (hbody : m.body = some body) :
    Relation.ReflTransGen (Approaches (config.context u m) id)
      (.stmts body.stmts, Env.ofParams (config.context u m).model m.params) (p, env) := by
  induction h with
  | start hbody' =>
    obtain rfl : body = _ := Option.some.inj (hbody.symm.trans hbody')
    exact .refl
  | enter h hstep ih =>
    have hid' := List.map_subset Declaration.id hstep.declarations_subset hid
    exact (ih hid').tail ⟨h.nodup_declarations hu hm, hstep, hid⟩

theorem Reached.exists_body {ctx : Context} (h : Reached ctx m p env) :
    ∃ body, m.body = some body := by
  induction h with
  | start hbody => exact ⟨_, hbody⟩
  | enter _ _ ih => exact ih

/-- **In a valid unit each variable of a body is declared at one point.** -/
theorem Reached.own_unique (hu : u.validate = .ok u) (hm : m ∈ u.allMethods)
    (hp : Reached (config.context u m) m p env) {d : Declaration} (hd : p.own? = some d)
    (hq : Reached (config.context u m) m q env') {d' : Declaration} (hd' : q.own? = some d')
    (hid : d.id = d'.id) : p = q ∧ env = env' := by
  have hown : ∀ {r : Part} {d : Declaration}, r.own? = some d →
      d.id ∈ Declaration.ids r.declarations := by
    intro r d hd
    rw [r.declarations_eq (config.context u m) env, hd]
    exact List.mem_cons_self
  -- nothing further on the way declares the variable
  have hlast : ∀ {a b : Part × Env} {d : Declaration}, a.1.own? = some d →
      ¬ Approaches (config.context u m) d.id a b :=
    fun hd h => h.2.1.own_not_mem h.1 hd h.2.2
  obtain ⟨body, hbody⟩ := hp.exists_body
  have hpath := hp.approached hu hm (hown hd) hbody
  have hpath' := hq.approached hu hm (hown hd') hbody
  rw [← hid] at hpath'
  have hsame : (p, env) = (q, env') := by
    rcases Relation.ReflTransGen.total_of_right_unique (Approaches.rightUnique _ _) hpath hpath'
      with h | h
    · rcases h.cases_head with heq | ⟨b, hstep, -⟩
      · exact heq
      · exact absurd hstep (hlast hd)
    · rcases h.cases_head with heq | ⟨b, hstep, -⟩
      · exact heq.symm
      · exact absurd (hid ▸ hstep) (hlast hd')
  exact Prod.mk.inj hsame

end Reached

end Closedness
