import Closedness.Proofs.Variables

/-!
# The variables that an expression leaves behind

A pattern adds its variables to the scope that the expression stands in, so they outlive the
expression. `Expr.exposed` lists those that do, and `eval_exposes` says that evaluating an
expression adds just these to the innermost scope, in order.

The two paths of a conditional expression have no scopes of their own. Where they join, the
variables of the first path are forgotten and those of the second stay, so a conditional is
isolated from what follows just when its last operand exposes nothing
(`conditional_isolated_iff`).
-/

namespace Closedness

mutual

/-- The variables that an expression leaves in the scope it stands in. -/
def Expr.exposed : Expr → List Declaration
  | .null _ | .literal _ _ | .var _ _ | .self _ | .singleton _ _ => []
  | .field receiver _ _ => Expr.optionExposed receiver
  | .call receiver _ args _ => Expr.optionExposed receiver ++ Expr.listExposed args
  | .construct _ args _ => Expr.listExposed args
  | .paren inner _ => inner.exposed
  | .instanceOf operand pattern _ => operand.exposed ++ pattern.declarations
  | .conditional condition _ elseExpr _ => condition.exposed ++ elseExpr.exposed
  | .switch scrutinee _ _ => scrutinee.exposed
  | .assign _ value _ => value.exposed
  | .other _ children _ => Expr.listExposed children

def Expr.listExposed : List Expr → List Declaration
  | [] => []
  | e :: rest => e.exposed ++ Expr.listExposed rest

def Expr.optionExposed : Option Expr → List Declaration
  | none => []
  | some e => e.exposed

end

/-! ## Walks that add variables -/

namespace Env

/-- The innermost scope has gained the given variables, and the scopes hold no other new ones. -/
structure Exposes (exposed : List DeclId) (before after : Env) : Prop where
  outer : after.outer.map Table.keys = before.outer.map Table.keys
  inner : after.inner.keys = before.inner.keys ++ exposed

namespace Exposes

variable {exposed exposed' : List DeclId} {before after : Env}

theorem of_keys (h : after.frames.map Table.keys = before.frames.map Table.keys) :
    Exposes [] before after := by
  obtain ⟨hinner, houter⟩ := List.cons.inj h
  exact ⟨houter, by rw [List.append_nil]; exact hinner⟩

/-- What is gained in two steps is what each of them gains, in order. -/
theorem trans {after' : Env} (h : Exposes exposed before after)
    (h' : Exposes exposed' after after') : Exposes (exposed ++ exposed') before after' where
  outer := h'.outer.trans h.outer
  inner := by rw [h'.inner, h.inner, List.append_assoc]

/-- Another path that joins adds no variables. -/
theorem merge (h : Exposes exposed before after) (other : Env) :
    Exposes exposed before (after.merge other) := by
  obtain ⟨hinner, houter⟩ := List.cons.inj (map_keys_frames_merge after other)
  exact ⟨houter.trans h.outer, hinner.trans h.inner⟩

theorem declare {env : Env} {id : DeclId} (hf : env.Fresh [id]) (s : VarState) :
    Exposes [id] env (env.declare id s) where
  outer := rfl
  inner := by
    have hnew : id ∉ env.inner.keys := fun hmem =>
      hf.not_mem List.mem_cons_self (List.mem_append_left _ hmem)
    exact Table.keys_insert_of_not_mem hnew s

theorem frames (h : Exposes exposed before after) :
    after.frames.map Table.keys =
      (before.inner.keys ++ exposed) :: before.outer.map Table.keys := by
  simp only [Env.frames, List.map_cons, h.inner, h.outer]

/-- The variables in scope are those before and the exposed ones. -/
theorem mem_ids (h : Exposes exposed before after) {id : DeclId} :
    id ∈ after.ids ↔ id ∈ before.ids ∨ id ∈ exposed := by
  rw [ids_eq, ids_eq, h.inner, List.flatMap_def, h.outer, ← List.flatMap_def]
  simp only [List.mem_append]
  exact or_right_comm

/-- Only declared variables are exposed. -/
theorem subperm {declared assigned : List DeclId} (h : Exposes exposed before after)
    (hevolves : Evolves declared assigned before after) : exposed.Subperm declared := by
  obtain ⟨new, hnew, hkeys⟩ := hevolves.inner
  have hsame : new = exposed := List.append_cancel_left (hkeys.symm.trans h.inner)
  exact hsame ▸ hnew

end Exposes

end Env

namespace Walk

variable {α β : Type} {declared declared' assigned exposed exposed' : List DeclId}

/-- From wherever its declarations are new, the walk adds the given ones to the innermost scope. -/
def Exposes (declared exposed : List DeclId) (w : Walk α) : Prop :=
  ∀ env : Env, env.Fresh declared → env.Exposes exposed (w env).env

namespace Exposes

theorem of_still {w : Walk α} (h : Still w) : Exposes declared [] w := by
  intro env _
  rw [h env]
  exact .of_keys rfl

/-- One walk after the other exposes what each of them does, in order. -/
theorem bind {first : Walk α} {next : α → Walk β} (hevolves : first.Evolves declared assigned)
    (hfirst : Exposes declared exposed first) (hnext : ∀ a, Exposes declared' exposed' (next a)) :
    Exposes (declared ++ declared') (exposed ++ exposed') (first >>= next) := by
  intro env hf
  exact (hfirst env hf.left).trans (hnext _ _ ((hevolves env hf.left).fresh hf))

theorem bind_still {first : Walk α} {next : α → Walk β} (hfirst : Exposes declared exposed first)
    (hnext : ∀ a, Still (next a)) : Exposes declared exposed (first >>= next) := by
  intro env hf
  rw [bind_apply, hnext _ _]
  exact hfirst env hf

theorem still_bind {first : Walk α} {next : α → Walk β} (hfirst : Still first)
    (hnext : ∀ a, Exposes declared exposed (next a)) :
    Exposes declared exposed (first >>= next) := by
  intro env hf
  rw [bind_apply, hfirst env]
  exact hnext _ env hf

/-- Where two paths join, the variables of the second stay. -/
theorem fork (first : Walk α) {second : Walk β} (hsecond : Exposes declared' exposed second) :
    Exposes (declared ++ declared') exposed (first.fork second) :=
  fun env hf => (hsecond env hf.right).merge (first env).env

/-- Arms run in scopes of their own, so alternatives expose nothing. -/
theorem alternatives {exhaustive : Bool} {arms : List (Walk (Option ValueLevel))}
    (h : ∀ {env : Env}, env.Fresh declared →
      ∀ arm ∈ arms, env.Evolves [] assigned (arm env).env) :
    Exposes declared [] (Walk.alternatives exhaustive arms) := by
  intro env hf
  have hjoined : env.Evolves [] assigned (Walk.alternatives exhaustive arms env).env := by
    refine Env.Evolves.joinAll hf.nil fun o ho => ?_
    simp only [List.map_map, List.mem_map, Function.comp_apply] at ho
    obtain ⟨arm, harm, rfl⟩ := ho
    exact h hf arm harm
  exact .of_keys hjoined.keys_frames

end Exposes

end Walk

/-! ## Expressions -/

section Expressions

variable (ctx : Context)

/-- Binding a pattern variable exposes it. -/
theorem bindVariable_exposes (var : PatternVar) (incoming : ValueLevel) (type : Option String) :
    Walk.Exposes [var.id] [var.id] (bindVariable ctx var incoming type) := by
  intro env hf
  rw [bindVariable_apply]
  exact .declare hf _

theorem assignVariable_exposes (target : DeclId) (level : ValueLevel) (span : Span) :
    Walk.Exposes [] [] (assignVariable ctx target level span) :=
  fun env hf => .of_keys (assignVariable_evolves ctx target level span env hf).keys_frames

mutual

/-- A pattern leaves all of its variables behind. -/
theorem bindPattern_exposes : ∀ (p : Pattern) (incoming : ValueLevel)
    (built : Option Construction),
    Walk.Exposes (Declaration.ids p.declarations) (Declaration.ids p.declarations)
      (bindPattern ctx incoming built p)
  | .typeTest variant none span, incoming, built => by
    rw [bindPattern]
    exact .still_bind (.emit _) fun _ => .of_still (.pure _)
  | .typeTest variant (some var) span, incoming, built => by
    rw [bindPattern]
    exact .still_bind (.emit _) fun _ => bindVariable_exposes ctx var _ _
  | .variable var span, incoming, built => by
    rw [bindPattern]
    exact bindVariable_exposes ctx var _ _
  | .record variant components span, incoming, built => by
    rw [bindPattern]
    exact .still_bind (.emit _) fun _ => bindComponents_exposes components _ _
  | .wildcard span, incoming, built => by
    rw [bindPattern]
    exact .of_still (.pure _)

theorem bindComponents_exposes : ∀ (ps : List Pattern) (level : Nat → ValueLevel) (index : Nat),
    Walk.Exposes (Declaration.ids (Pattern.listDeclarations ps))
      (Declaration.ids (Pattern.listDeclarations ps)) (bindComponents ctx level index ps)
  | [], level, index => by
    rw [bindComponents]
    exact .of_still (.pure _)
  | p :: rest, level, index => by
    rw [bindComponents, Pattern.listDeclarations, Declaration.ids_append]
    exact .bind (bindPattern_evolves ctx p _ _) (bindPattern_exposes p _ _) fun _ =>
      bindComponents_exposes rest _ _

end

mutual

/-- Evaluating an expression adds the variables that it exposes to the innermost scope. -/
theorem eval_exposes : ∀ (e : Expr),
    Walk.Exposes (Declaration.ids e.declarations) (Declaration.ids e.exposed) (eval ctx e)
  | .null _ | .literal _ _ | .self _ | .singleton _ _ => by
    rw [eval]
    exact .of_still (.pure _)
  | .var decl _ => by
    rw [eval]
    exact .still_bind (readVariable_still decl) fun _ => .of_still (.pure _)
  | .field receiver component _ => by
    rw [eval]
    exact (evalOption_exposes receiver).bind_still fun _ => .pure _
  | .call receiver method args _ => by
    rw [eval, Expr.declarations, Expr.exposed, Declaration.ids_append, Declaration.ids_append]
    exact .bind (evalOption_evolves ctx receiver) (evalOption_exposes receiver) fun _ =>
      (evalArgs_exposes args _ _).bind_still fun _ => .pure _
  | .construct variant args _ => by
    rw [eval]
    exact (evalArgs_exposes args _ _).bind_still fun _ => .pure _
  | .paren inner _ => by
    rw [eval]
    exact eval_exposes inner
  | .instanceOf operand pattern _ => by
    rw [eval, Expr.declarations, Expr.exposed, Declaration.ids_append, Declaration.ids_append]
    exact .bind (eval_evolves ctx operand) (eval_exposes operand) fun _ =>
      (bindPattern_exposes ctx pattern _ _).bind_still fun _ => .pure _
  | .conditional condition thenExpr elseExpr _ => by
    rw [eval, Expr.declarations, Expr.exposed, List.append_assoc, Declaration.ids_append,
      Declaration.ids_append, Declaration.ids_append]
    exact .bind (eval_evolves ctx condition) (eval_exposes condition) fun _ =>
      (Walk.Exposes.fork _ (eval_exposes elseExpr)).bind_still fun _ => .pure _
  | .switch scrutinee arms _ => by
    rw [eval, Expr.declarations, Expr.exposed, Declaration.ids_append, ← List.append_nil
      (Declaration.ids scrutinee.exposed)]
    exact .bind (eval_evolves ctx scrutinee) (eval_exposes scrutinee) fun v =>
      (Walk.Exposes.alternatives (runArms_evolves ctx arms v)).bind_still fun _ => .pure _
  | .assign target value _ => by
    rw [eval, Expr.declarations, Expr.exposed, ← List.append_nil (Declaration.ids _),
      ← List.append_nil (Declaration.ids value.exposed)]
    exact .bind (eval_evolves ctx value) (eval_exposes value) fun v =>
      (assignVariable_exposes ctx target _ _).bind_still fun _ => .pure _
  | .other _ children _ => by
    rw [eval]
    exact (evalArgs_exposes children _ _).bind_still fun _ => .pure _

theorem evalOption_exposes : ∀ (e : Option Expr),
    Walk.Exposes (Declaration.ids (Expr.optionDeclarations e))
      (Declaration.ids (Expr.optionExposed e)) (evalOption ctx e)
  | none => by
    rw [evalOption]
    exact .of_still (.pure _)
  | some e => by
    rw [evalOption]
    exact (eval_exposes e).bind_still fun _ => .pure _

theorem evalArgs_exposes : ∀ (es : List Expr) (required : Nat → Option Level) (index : Nat),
    Walk.Exposes (Declaration.ids (Expr.listDeclarations es))
      (Declaration.ids (Expr.listExposed es)) (evalArgs ctx required index es)
  | [], required, index => by
    rw [evalArgs]
    exact .of_still (.pure _)
  | e :: rest, required, index => by
    rw [evalArgs, Expr.listDeclarations, Expr.listExposed, Declaration.ids_append,
      Declaration.ids_append]
    exact .bind (eval_evolves ctx e) (eval_exposes e) fun _ =>
      .still_bind (checkAgainst_still _ _ _ _ _) fun _ =>
        (evalArgs_exposes rest _ _).bind_still fun _ => .pure _

end

end Expressions

/-! ## Conditional expressions -/

/-- **A conditional expression is isolated from what follows just when its last operand exposes no
variable.** Wherever the walk through a method of a valid unit evaluates one, the variables of the
middle operand are gone afterwards, and the scopes hold the variables that they hold after the
condition, with those that the last operand exposes added to the innermost. -/
theorem conditional_isolated_iff (config : Config) {u : CompilationUnit} (hu : u.validate = .ok u)
    {m : Method} (hm : m ∈ u.allMethods) {condition thenExpr elseExpr : Expr} {span : Span}
    {env : Env}
    (h : Reached (config.context u m) m
      (.expr (.conditional condition thenExpr elseExpr span)) env) :
    let tested := (eval (config.context u m) condition env).env
    let after :=
      (eval (config.context u m) (.conditional condition thenExpr elseExpr span) env).env
    after.frames.map Table.keys =
        (tested.inner.keys ++ Declaration.ids elseExpr.exposed) :: tested.outer.map Table.keys ∧
      (∀ d ∈ thenExpr.declarations, d.id ∉ after.ids) ∧
      ((∀ id, id ∈ after.ids ↔ id ∈ tested.ids) ↔ elseExpr.exposed = []) := by
  intro tested after
  have hf : env.Fresh (Declaration.ids condition.declarations ++
      (Declaration.ids thenExpr.declarations ++ Declaration.ids elseExpr.declarations)) := by
    rw [← Declaration.ids_append, ← Declaration.ids_append, ← List.append_assoc]
    exact h.fresh hu hm
  have htested := (eval_evolves (config.context u m) condition env hf.left).fresh hf
  have helse := eval_exposes (config.context u m) elseExpr tested htested.right
  have hdeclared := helse.subperm (eval_evolves (config.context u m) elseExpr tested htested.right)
  have hafter : tested.Exposes (Declaration.ids elseExpr.exposed) after := by
    unfold after
    rw [eval]
    exact helse.merge _
  refine ⟨hafter.frames, fun d hd hmem => ?_, fun hsame => ?_, fun hnone id => ?_⟩
  · have hthen : d.id ∈ Declaration.ids thenExpr.declarations := List.mem_map_of_mem hd
    rcases hafter.mem_ids.1 hmem with hold | hnew
    · exact htested.left.not_mem hthen hold
    · exact htested.disjoint hthen (hdeclared.subset hnew)
  · -- an exposed variable is new, so the sets differ as soon as there is one
    refine List.eq_nil_iff_forall_not_mem.2 fun d hd => ?_
    have hid : d.id ∈ Declaration.ids elseExpr.exposed := List.mem_map_of_mem hd
    have hold : d.id ∈ tested.ids := (hsame d.id).1 (hafter.mem_ids.2 (Or.inr hid))
    exact htested.right.not_mem (hdeclared.subset hid) hold
  · rw [hafter.mem_ids, hnone]
    exact or_iff_left List.not_mem_nil

namespace Outliving

/-- A pattern that is a variable. -/
def named (id : UInt32) (annots : List Annot) : Pattern :=
  .variable { id := ⟨id⟩, name := "v", annots, span := .spot 4 } (.spot 4)

/-- `p instanceof …` -/
def tested (pattern : Pattern) : Expr :=
  .instanceOf (.var ⟨1⟩ (.spot 4)) pattern (.spot 4)

/-- `c ? p instanceof r : p instanceof @Closed q` -/
def choice : Expr :=
  .conditional (.var ⟨2⟩ (.spot 4)) (tested (named 4 []))
    (tested (named 5 [{ name := "Closed", span := .spot 4 }])) (.spot 4)

/-- `@Closed Term m(Term p, boolean c) { boolean d = …; return q; }` -/
def method : Method :=
  let param (id : UInt32) (type : String) : Param :=
    { id := ⟨id⟩, name := "p", type, annots := [], isVarargs := false, span := .spot 1 }
  { id := ⟨0⟩
    name := "m"
    isStatic := true
    annots := [{ name := "Closed", span := .spot 0 }]
    returnType := some "Term"
    params := [param 1 "Term", param 2 "boolean"]
    body := some (.mk [
      .declare
        { id := ⟨3⟩, name := "d", type := some "boolean", annots := [], span := .spot 3 }
        (some choice) (.spot 3),
      .ret (some (.var ⟨5⟩ (.spot 6))) (.spot 5)] (.spot 2))
    span := .spot 0 }

/-- The unit that declares the method. -/
def unit : CompilationUnit :=
  { name := "outliving", types := [], methods := [method] }

/-- The context in which the method is walked. -/
def context : Context :=
  ({} : Config).context unit method

/-- The environment in which the conditional is evaluated. -/
def start : Env :=
  Env.ofParams context.model method.params

theorem reached : Reached context method (.expr choice) start :=
  ((Reached.start rfl).enter .firstStmt).enter .init

end Outliving

/-- Of the two pattern variables only that of the last operand stays. -/
theorem conditional_isolated_iff_choice :
    Outliving.unit.validate = .ok Outliving.unit ∧
      Reached Outliving.context Outliving.method (.expr Outliving.choice) Outliving.start ∧
      (eval Outliving.context Outliving.choice Outliving.start).env.frames.map Table.keys =
        [[⟨1⟩, ⟨2⟩] ++ [⟨5⟩]] ∧
      ⟨4⟩ ∉ (eval Outliving.context Outliving.choice Outliving.start).env.ids := by
  obtain ⟨hframes, hthen, -⟩ :=
    conditional_isolated_iff {} (u := Outliving.unit) rfl List.mem_cons_self Outliving.reached
  exact ⟨rfl, Outliving.reached, hframes, hthen _ List.mem_cons_self⟩

/-- **A conditional expression need not be isolated.** The variable of the last operand is not there
once the condition is evaluated, and is after the conditional; the method returns it, and nothing is
found although what follows a conditional should not know the variable. -/
theorem conditional_not_isolated :
    Outliving.unit.validate = .ok Outliving.unit ∧
      Reached Outliving.context Outliving.method (.expr Outliving.choice) Outliving.start ∧
      ⟨5⟩ ∉ (eval Outliving.context (.var ⟨2⟩ (.spot 4)) Outliving.start).env.ids ∧
      (eval Outliving.context Outliving.choice Outliving.start).env.level? ⟨5⟩ =
        some (.level .closed) ∧
      Event.diagnostics (runLog {} Outliving.unit) = [] := by
  refine ⟨rfl, Outliving.reached, ?_, ?_, ?_⟩ <;> decide

end Closedness
