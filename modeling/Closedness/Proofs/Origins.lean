import Closedness.Proofs.Lockstep
import Closedness.Proofs.Tables

/-!
# What annotations of variables are worth

Every variable that the walk through a method knows of goes back to one declaration (`Declares`): a
parameter, or a part of the body that declares it by itself. What is known of it is what the
declaration says, apart from its level (`Reached.declared`), and in a valid unit there is one such
declaration for each id (`Declares.unique`). So it is settled where a variable is declared whether
it is pinned.

Parameters and locals with an explicit annotation are, unless the initialiser of a local makes it
drop its annotation: they keep the level they are annotated with, and judge what is assigned to
them. Variables of patterns are not, whatever their annotation says: they start at the level they
are annotated with, and take the level of whatever is assigned to them, without a judgement
(`explicit_annotations`).
-/

namespace Closedness

/-! ## Declarations -/

/-- The state in which a part declares its own variable. -/
def Part.ownState? (ctx : Context) (env : Env) : Part → Option VarState
  | .stmt (.declare decl none _) =>
    let own := ctx.names.resolve decl.annots
    some (.ofBinding (ctx.model.declaredBinding own.binding decl.type) own.span decl.type)
  | .stmt (.declare decl (some init) _) =>
    let given := eval ctx init env
    some (ctx.initialState decl (ctx.names.resolve decl.annots) init given.value.level given.env)
  | .pattern v p =>
    p.var?.map fun var => .plain
      (PatternVar.levelFor (ctx.names.resolve var.annots).binding (p.passed ctx.model v.level))
      (p.variant?.bind ctx.model.typeName?)
  | _ => none

/-- The walk through a method declares a variable in a state, and has then got to an environment. -/
inductive Declares (ctx : Context) (m : Method) : DeclId → VarState → Env → Prop
  | param {p} (hp : p ∈ m.params) :
    Declares ctx m p.id (Env.paramState ctx.model p) (Env.ofParams ctx.model m.params)
  | part {p env d s} (h : Reached ctx m p env) (hd : p.own? = some d)
    (hs : p.ownState? ctx env = some s) : Declares ctx m d.id s (p.run ctx env).env

/-- A pattern that is reached declares its variable. -/
theorem Declares.variable {ctx : Context} {m : Method} {v : Evaluated} {p : Pattern}
    {var : PatternVar} {env : Env} (h : Reached ctx m (.pattern v p) env)
    (hvar : p.var? = some var) :
    Declares ctx m var.id
      (.plain
        (PatternVar.levelFor (ctx.names.resolve var.annots).binding (p.passed ctx.model v.level))
        (p.variant?.bind ctx.model.typeName?))
      (bindPattern ctx v.level v.built p env).env :=
  .part h (Part.own?_pattern hvar) (by rw [Part.ownState?, hvar, Option.map_some])

/-- What is known of the variable goes back to a declaration; its level may be another by now. -/
def Declared (ctx : Context) (m : Method) (id : DeclId) (s : VarState) : Prop :=
  ∃ start after, Declares ctx m id start after ∧ s = { start with level := s.level }

/-- Storing a level keeps where a variable comes from. -/
theorem Declared.set {ctx : Context} {m : Method} {id : DeclId} {s : VarState}
    (h : Declared ctx m id s) (level : ValueLevel) : Declared ctx m id { s with level } := by
  obtain ⟨start, after, hdeclares, hs⟩ := h
  exact ⟨start, after, hdeclares, by rw [hs]⟩

theorem Declares.declared {ctx : Context} {m : Method} {id : DeclId} {s : VarState} {after : Env}
    (h : Declares ctx m id s after) : Declared ctx m id s :=
  ⟨s, after, h, rfl⟩

/-- Every variable goes back to a declaration. -/
def Lockstep.origins (ctx : Context) (m : Method) : Lockstep ctx fun _ annots => annots where
  levels := .all ctx
  state id s s' := (Weakening.all ctx).State s s' ∧ Declared ctx m id s
  log _ _ := True
  visits := Reached ctx m
  enter := .enter
  read _ := trivial
  set h _ := ⟨⟨trivial, h.1.pinned, h.1.pinnedAt, h.1.type⟩, h.2.set _⟩
  nil := trivial
  append _ _ := trivial
  position _ _ _ := trivial
  narrowing _ _ _ := trivial
  pinned _ h := h.1.pinned
  judged _ _ _ _ := trivial
  stored _ _ _ _ := trivial
  bound h hvar _ := ⟨⟨⟨trivial, rfl, rfl, rfl⟩, (Declares.variable h hvar).declared⟩, trivial⟩
  resolved _ := trivial
  declared h := ⟨⟨trivial, rfl, rfl, rfl⟩, (Declares.part h rfl rfl).declared⟩
  initialised h _ henv :=
    ⟨⟨Weakening.initialState_weakens (fun h => h.1.type) henv _ _ _ trivial fun _ => trivial,
      (Declares.part h rfl rfl).declared⟩, trivial⟩

/-- At the start of a body there are the parameters. -/
theorem Lockstep.origins_start (ctx : Context) (m : Method) :
    (Lockstep.origins ctx m).Holds (Env.ofParams ctx.model m.params) := by
  have hfold : ∀ (params : List Param) {env : Env}, params ⊆ m.params →
      (Lockstep.origins ctx m).Envs env env →
      (Lockstep.origins ctx m).Envs
        (params.foldl (fun env p => env.declare p.id (Env.paramState ctx.model p)) env)
        (params.foldl (fun env p => env.declare p.id (Env.paramState ctx.model p)) env) := by
    intro params
    induction params with
    | nil => exact fun _ h => h
    | cons p rest ih =>
      intro env hsub h
      obtain ⟨hp, hrest⟩ := List.cons_subset.1 hsub
      exact ih hrest (h.declare ⟨⟨trivial, rfl, rfl, rfl⟩, (Declares.param hp).declared⟩)
  exact ⟨_, hfold m.params (List.Subset.refl _) (.cons .nil .nil)⟩

section Reached

variable {ctx : Context} {m : Method} {p : Part} {env : Env}

/-- Wherever a part starts, the variables go back to declarations. -/
theorem Reached.origins (h : Reached ctx m p env) : (Lockstep.origins ctx m).Holds env := by
  induction h with
  | start _ => exact Lockstep.origins_start ctx m
  | enter h hstep ih => exact ih.enter (fun _ => trivial) h hstep

theorem Lockstep.Holds.declared (h : (Lockstep.origins ctx m).Holds env) {id : DeclId}
    {s : VarState} (hs : env.get? id = some s) : Declared ctx m id s := by
  obtain ⟨env', henv⟩ := h
  obtain ⟨hnone, -⟩ | ⟨t, t', ht, -, hstate⟩ := henv.get?_cases id
  · cases hnone.symm.trans hs
  · obtain rfl : t = s := Option.some.inj (ht.symm.trans hs)
    exact hstate.2

/-- **What is known of a variable goes back to a declaration**, at the start and at the end of every
part that the walk gets to. -/
theorem Reached.declared (h : Reached ctx m p env) {id : DeclId} {s : VarState}
    (hs : env.get? id = some s ∨ (p.run ctx env).env.get? id = some s) :
    Declared ctx m id s := by
  rcases hs with hs | hs
  · exact h.origins.declared hs
  · exact (h.origins.run (fun _ => trivial) h).declared hs

end Reached

/-! ## One declaration for each variable -/

section Valid

variable {config : Config} {u : CompilationUnit} (hu : u.validate = .ok u) {m : Method}
  (hm : m ∈ u.allMethods)
include hu hm

/-- The parameters of a method and the variables of its body all differ. -/
theorem nodup_variables : (m.params.map Param.id ++
    Declaration.ids (Block.optionDeclarations m.body)).Nodup := by
  have hmethod : (Declaration.ids m.declarations).Nodup :=
    (CompilationUnit.nodup_of_validate hu).sublist
      ((CompilationUnit.declarations_sublist hm).map _)
  rw [Method.declarations, Declaration.ids_cons, Declaration.ids_append] at hmethod
  have hparams : Declaration.ids (m.params.map Param.declaration) = m.params.map Param.id := by
    simp [Declaration.ids, Param.declaration]
  rw [← hparams]
  exact (List.nodup_cons.1 hmethod).2

/-- The variables in a body are no parameters. -/
theorem Reached.own_not_param {p : Part} {env : Env}
    (h : Reached (config.context u m) m p env) {d : Declaration} (hd : p.own? = some d) :
    d.id ∉ m.params.map Param.id := by
  intro hparam
  have hbody : d ∈ Block.optionDeclarations m.body := by
    refine h.declarations_subset ?_
    rw [p.declarations_eq (config.context u m) env, hd]
    exact List.mem_cons_self
  exact (List.nodup_append.1 (nodup_variables hu hm)).2.2 _ hparam _ (List.mem_map_of_mem hbody) rfl

/-- **Each variable has one declaration.** -/
theorem Declares.unique {id : DeclId} {s s' : VarState} {after after' : Env}
    (h : Declares (config.context u m) m id s after)
    (h' : Declares (config.context u m) m id s' after') : s = s' ∧ after = after' := by
  generalize hid : id = id' at h'
  cases h with
  | param hp =>
    cases h' with
    | param hp' =>
      have hnodup := (List.nodup_append.1 (nodup_variables hu hm)).1
      rw [List.inj_on_of_nodup_map hnodup hp hp' hid]
      exact ⟨rfl, rfl⟩
    | part h' hd' hs' =>
      exact absurd (hid ▸ List.mem_map_of_mem hp) (h'.own_not_param hu hm hd')
  | part h hd hs =>
    cases h' with
    | param hp' => exact absurd (hid ▸ List.mem_map_of_mem hp') (h.own_not_param hu hm hd)
    | part h' hd' hs' =>
      obtain ⟨rfl, rfl⟩ := h.own_unique hu hm hd h' hd' hid
      exact ⟨Option.some.inj (hs.symm.trans hs'), rfl⟩

/-- A declaration leaves its variable in the state it is declared in. -/
theorem Declares.get? {id : DeclId} {s : VarState} {after : Env}
    (h : Declares (config.context u m) m id s after) : after.get? id = some s := by
  cases h with
  | param hp =>
    have hnodup := (List.nodup_append.1 (nodup_variables hu hm)).1
    have hvars : Env.ofParams (config.context u m).model m.params =
        ({} : Env).declareAll (m.params.map fun p =>
          (p.id, Env.paramState (config.context u m).model p)) := by
      rw [Env.declareAll, List.foldl_map]
      rfl
    rw [hvars]
    refine Env.get?_declareAll ?_ {} (v := (_, _)) (List.mem_map_of_mem hp)
    rw [List.map_map]
    exact hnodup
  | @part p env d s h hd hs =>
    match p, hd, hs with
    | .stmt (.declare decl none span), rfl, rfl =>
      simp only [Part.run, Walk.bind_apply, Walk.pure_apply, exec, resolveVariable_apply,
        declareLocal_apply]
      exact Env.get?_declare_self ..
    | .stmt (.declare decl (some init) span), rfl, rfl =>
      simp only [Part.run, Walk.bind_apply, Walk.pure_apply, exec, resolveVariable_apply,
        initLocal_apply]
      exact Env.get?_declare_self ..
    | .pattern v (.typeTest variant (some var) span), rfl, rfl =>
      simp only [Part.run, Walk.bind_apply, Walk.pure_apply, bindPattern, Walk.emit_apply,
        bindVariable_apply]
      exact Env.get?_declare_self ..
    | .pattern v (.variable var span), rfl, rfl =>
      simp only [Part.run, Walk.bind_apply, Walk.pure_apply, bindPattern, bindVariable_apply]
      exact Env.get?_declare_self ..

/-- What is known of a variable is, at every point, what its declaration says, apart from its
level. -/
theorem Declares.eq_of_reached {id : DeclId} {start s : VarState} {after : Env}
    (h : Declares (config.context u m) m id start after) {p : Part} {env : Env}
    (hp : Reached (config.context u m) m p env)
    (hs : env.get? id = some s ∨ (p.run (config.context u m) env).env.get? id = some s) :
    s = { start with level := s.level } := by
  obtain ⟨start', after', h', hs'⟩ := hp.declared hs
  obtain ⟨rfl, -⟩ := h.unique hu hm h'
  exact hs'

end Valid

/-! ## Keeping and forgetting annotations -/

/-- The variable keeps the level it is annotated with, at `annotated`: it has that level once it is
declared, in `after`, and wherever it is in scope, and what is assigned to it is judged by it. -/
structure KeepsAnnotation (ctx : Context) (m : Method) (id : DeclId) (l : Level)
    (annotated : Option Span) (after : Env) : Prop where
  declared : after.level? id = some (.level l)
  kept {p env level} (h : Reached ctx m p env)
    (hlevel : env.level? id = some level ∨ (p.run ctx env).env.level? id = some level) :
    level = .level l
  judged {value span env} (h : Reached ctx m (.expr (.assign id value span)) env)
    (hscope : ((eval ctx value env).env.level? id).isSome) :
    let given := eval ctx value env
    eval ctx (.assign id value span) env =
      { value := { level := given.value.level }
        env := given.env
        log := given.log ++
          (judgementLog ctx.options l given.value.level .declaration value.span ++
            redundancyLog ctx.options l given.value.level annotated) }

/-- The variable has the level it is annotated with only until something else is assigned to it,
which is not judged. -/
structure ForgetsAnnotation (ctx : Context) (m : Method) (id : DeclId) (l : Level)
    (type : Option String) (after : Env) : Prop where
  declared : after.level? id = some (.level l)
  taken {value span env} (h : Reached ctx m (.expr (.assign id value span)) env)
    (hscope : ((eval ctx value env).env.level? id).isSome) :
    let given := eval ctx value env
    eval ctx (.assign id value span) env =
      { value := { level := given.value.level }
        env := given.env.assign id (ctx.plainLevel given.value.level type)
        log := given.log }

section Assignments

variable {ctx : Context} {id : DeclId} {value : Expr} {env : Env} {s : VarState}

/-- A pinned variable judges what is assigned to it, and stays as it is. -/
theorem eval_assign_pinned {l : Level} (hs : (eval ctx value env).env.get? id = some s)
    (hpinned : s.pinned = some l) (span : Span) :
    let given := eval ctx value env
    eval ctx (.assign id value span) env =
      { value := { level := given.value.level }
        env := given.env
        log := given.log ++
          (judgementLog ctx.options l given.value.level .declaration value.span ++
            redundancyLog ctx.options l given.value.level s.pinnedAt) } := by
  simp only [eval, Walk.bind_apply, Walk.pure_apply, assignVariable_apply, Context.assigned,
    assignmentLog, hs, hpinned, List.append_nil]

/-- Any other variable takes the level of what is assigned to it. -/
theorem eval_assign_plain (hs : (eval ctx value env).env.get? id = some s)
    (hpinned : s.pinned = none) (span : Span) :
    let given := eval ctx value env
    eval ctx (.assign id value span) env =
      { value := { level := given.value.level }
        env := given.env.assign id (ctx.plainLevel given.value.level s.type)
        log := given.log } := by
  simp only [eval, Walk.bind_apply, Walk.pure_apply, assignVariable_apply, Context.assigned,
    assignmentLog, hs, hpinned, List.append_nil]

end Assignments

section Annotated

variable {config : Config} {u : CompilationUnit} (hu : u.validate = .ok u) {m : Method}
  (hm : m ∈ u.allMethods) {id : DeclId} {l : Level} {type : Option String} {after : Env}
include hu hm

/-- Before and after a part that is reached, a pinned variable has the level it is pinned at. -/
theorem Reached.holdsPin {p : Part} {env : Env} (h : Reached (config.context u m) m p env)
    {s : VarState}
    (hs : env.get? id = some s ∨ (p.run (config.context u m) env).env.get? id = some s) :
    s.HoldsPin := by
  have hD := Discipline.receivers_allows config.names u.declarations
  obtain ⟨hpoint, hreceives⟩ := h.point hu hD hm
  rcases hs with hs | hs
  · exact hpoint.pins hs
  · exact (hpoint.run (Discipline.within_context hD m) hreceives).1.pins hs

/-- Where something is assigned to a variable in scope, the variable is, apart from its level, what
its declaration says. -/
theorem Declares.get?_assigned {start : VarState}
    (h : Declares (config.context u m) m id start after) {value : Expr} {span : Span} {env : Env}
    (ha : Reached (config.context u m) m (.expr (.assign id value span)) env)
    (hscope : ((eval (config.context u m) value env).env.level? id).isSome) :
    ∃ level, (eval (config.context u m) value env).env.get? id = some { start with level } := by
  rw [Env.level?, Option.isSome_map, Option.isSome_iff_exists] at hscope
  obtain ⟨s, hs⟩ := hscope
  have hstart := h.eq_of_reached hu hm (ha.enter .assignValue) (Or.inr hs)
  exact ⟨s.level, hs.trans (congrArg some hstart)⟩

/-- A variable that is declared pinned keeps its annotation. -/
theorem Declares.keepsAnnotation {span : Option Span}
    (h : Declares (config.context u m) m id (.pin l span type) after) :
    KeepsAnnotation (config.context u m) m id l span after where
  declared := by rw [Env.level?, h.get? hu hm]; rfl
  kept {p env level} hp hlevel := by
    simp only [Env.level?, Option.map_eq_some_iff, ← exists_or, ← or_and_right] at hlevel
    obtain ⟨s, hs, rfl⟩ := hlevel
    have hpinned : s.pinned = some l := by rw [h.eq_of_reached hu hm hp hs]; rfl
    exact hp.holdsPin hu hm hs l hpinned
  judged ha hscope := by
    obtain ⟨level, hs⟩ := h.get?_assigned hu hm ha hscope
    exact eval_assign_pinned hs rfl _

/-- A variable that is declared unpinned forgets its annotation. -/
theorem Declares.forgetsAnnotation
    (h : Declares (config.context u m) m id (.plain (.level l) type) after) :
    ForgetsAnnotation (config.context u m) m id l type after where
  declared := by rw [Env.level?, h.get? hu hm]; rfl
  taken ha hscope := by
    obtain ⟨level, hs⟩ := h.get?_assigned hu hm ha hscope
    exact eval_assign_plain hs rfl _

/-- A parameter with annotations asks for what they say. -/
theorem Model.paramBinding_annotated {names : Names} {p : Param} (hp : p ∈ m.params)
    {own : Binding} (hown : (names.resolve p.annots).binding = some own) :
    (ofUnit names u).paramBinding p.id = own := by
  have hsome : ((ofUnit names u).param? p.id).isSome := param?_isSome hu hm hp
  have htables : (ofUnit names u).Tabulates u := tabulates hu
  obtain ⟨e, he⟩ := Option.isSome_iff_exists.1 hsome
  obtain ⟨-, hbinding⟩ := of_param? he
  have hentry : (p.id, e.decl) ∈ (u.allMethods.flatMap Method.params).map fun p => (p.id, p) := by
    rw [← htables.params]
    exact List.mem_map.2 ⟨_, Table.mem_of_find? he, rfl⟩
  obtain ⟨q, hq, heq⟩ := List.mem_map.1 hentry
  obtain ⟨hid, hqe⟩ := Prod.mk.inj heq
  have hdecl : e.decl = p := hqe ▸ List.inj_on_of_nodup_map (CompilationUnit.nodup_params hu) hq
    (List.mem_flatMap.2 ⟨m, hm, hp⟩) hid
  rw [hdecl, hown] at hbinding
  rw [paramBinding, he]
  exact hbinding

end Annotated

section Explicit

variable {l : Level} (hl : l ≠ .inherit)
include hl

theorem VarState.ofBinding_explicit (span : Option Span) (type : Option String) :
    ofBinding (.level l) span type = pin l span type := by
  cases l with
  | inherit => exact absurd rfl hl
  | bound | closed => rfl

theorem PatternVar.levelFor_explicit (incoming : ValueLevel) :
    levelFor (some (.level l)) incoming = .level l := by
  cases l with
  | inherit => exact absurd rfl hl
  | bound | closed => rfl

/-- A local variable is pinned at its annotation where the marker counts. -/
theorem Context.initialState_explicit {ctx : Context} {decl : LocalDecl} {resolution : Resolution}
    {init : Expr} {env : Env} (hbinding : resolution.binding = some (.level l))
    (hkeeps : init.keepsMarker ctx env decl.type) (value : ValueLevel) :
    ctx.initialState decl resolution init value env =
      .pin l resolution.span (decl.type.or (init.staticType? ctx env)) := by
  cases l with
  | inherit => exact absurd rfl hl
  | bound | closed => simp only [initialState, hbinding, hkeeps, if_true]

end Explicit

/-- **Parameters and locals keep their annotations, and variables of patterns forget them.** A local
with an initialiser keeps its annotation if the initialiser does not make it drop it. -/
theorem explicit_annotations (config : Config) {u : CompilationUnit} (hu : u.validate = .ok u)
    {m : Method} (hm : m ∈ u.allMethods) {l : Level} (hl : l ≠ .inherit) :
    let ctx := config.context u m
    (∀ p ∈ m.params, (ctx.names.resolve p.annots).binding = some (.level l) →
      KeepsAnnotation ctx m p.id l none (Env.ofParams ctx.model m.params)) ∧
    (∀ {decl init span env}, Reached ctx m (.stmt (.declare decl init span)) env →
      (ctx.names.resolve decl.annots).binding = some (.level l) →
      (∀ e ∈ init, e.keepsMarker ctx (eval ctx e env).env decl.type) →
      KeepsAnnotation ctx m decl.id l (ctx.names.resolve decl.annots).span
        (exec ctx (.declare decl init span) env).env) ∧
    (∀ {v p var env}, Reached ctx m (.pattern v p) env → p.var? = some var →
      (ctx.names.resolve var.annots).binding = some (.level l) →
      ForgetsAnnotation ctx m var.id l (p.variant?.bind ctx.model.typeName?)
        (bindPattern ctx v.level v.built p env).env) := by
  intro ctx
  refine ⟨fun p hp hbinding => ?_, fun {decl init span env} h hbinding hkeeps => ?_,
    fun {v p var env} h hvar hbinding => ?_⟩
  · have hstate : Env.paramState ctx.model p = .pin l none (some p.type) := by
      have hparam : ctx.model.paramBinding p.id = .level l :=
        Model.paramBinding_annotated hu hm hp hbinding
      rw [Env.paramState, hparam]
      exact VarState.ofBinding_explicit hl _ _
    have hdeclares : Declares ctx m p.id _ _ := .param hp
    rw [hstate] at hdeclares
    exact hdeclares.keepsAnnotation hu hm
  · cases init with
    | none =>
      have hdeclares : Declares ctx m decl.id _ _ := .part h rfl rfl
      rw [hbinding, Model.declaredBinding, VarState.ofBinding_explicit hl] at hdeclares
      exact hdeclares.keepsAnnotation hu hm
    | some init =>
      have hdeclares : Declares ctx m decl.id _ _ := .part h rfl rfl
      rw [Context.initialState_explicit hl hbinding (hkeeps init rfl)] at hdeclares
      exact hdeclares.keepsAnnotation hu hm
  · have hdeclares := Declares.variable h hvar
    rw [hbinding, PatternVar.levelFor_explicit hl] at hdeclares
    exact hdeclares.forgetsAnnotation hu hm

/-! ## A method that assigns to a local and to a variable of a pattern -/

namespace Reassigning

/-- `@Closed` -/
def closed : List Annot :=
  [{ name := "Closed", span := .spot 3 }]

/-- `@Closed Term x = p;` -/
def declared : Stmt :=
  .declare { id := ⟨3⟩, name := "x", type := some "Term", annots := closed, span := .spot 3 }
    (some (.var ⟨1⟩ (.spot 3))) (.spot 3)

/-- `@Closed Term q` -/
def matched : Pattern :=
  .typeTest ⟨10⟩ (some { id := ⟨4⟩, name := "q", annots := closed, span := .spot 4 }) (.spot 4)

/-- `x = b` and `q = b` -/
def assigned (id : UInt32) (line : UInt64) : Expr :=
  .assign ⟨id⟩ (.var ⟨2⟩ (.spot line)) (.spot line)

/-- `if (p instanceof @Closed Term q) { x = b; q = b; return q; }` -/
def branch : Stmt :=
  .ifElse (.instanceOf (.var ⟨1⟩ (.spot 4)) matched (.spot 4))
    (.mk [
      .expr (assigned 3 5) (.spot 5),
      .expr (assigned 4 6) (.spot 6),
      .ret (some (.var ⟨4⟩ (.spot 7))) (.spot 7)] (.spot 4))
    none (.spot 4)

/-- `@Closed Term m(Term p, @Bound Term b) { … }` -/
def method : Method :=
  let param (id : UInt32) (annots : List Annot) : Param :=
    { id := ⟨id⟩, name := "p", type := "Term", annots, isVarargs := false, span := .spot 1 }
  { id := ⟨0⟩
    name := "m"
    isStatic := true
    annots := closed
    returnType := some "Term"
    params := [param 1 [], param 2 [{ name := "Bound", span := .spot 1 }]]
    body := some (.mk [declared, branch] (.spot 2))
    span := .spot 0 }

/-- `interface Term` -/
def term : TypeDecl :=
  { id := ⟨10⟩, name := "Term", annots := [], shape := .interface, supertypes := [], methods := [],
    span := .spot 0 }

/-- The unit that declares the interface and the method. -/
def unit : CompilationUnit :=
  { name := "reassigning", types := [term], methods := [method] }

/-- The context in which the method is walked. -/
def context : Context :=
  ({} : Config).context unit method

/-- Where the body starts. -/
def start : Env :=
  Env.ofParams context.model method.params

/-- Where the pattern is matched. -/
def tested : Env :=
  (exec context declared start).env.push

theorem reached_declared : Reached context method (.stmt declared) start :=
  (Reached.start rfl).enter .firstStmt

theorem reached_matched :
    Reached context method (.pattern (eval context (.var ⟨1⟩ (.spot 4)) tested).value matched)
      tested :=
  ((((Reached.start rfl).enter .restStmts).enter .firstStmt).enter .ifCondition).enter .test

/-- Where `q = b` is evaluated. -/
def matchedEnv : Env :=
  (eval context (assigned 3 5)
    (eval context (.instanceOf (.var ⟨1⟩ (.spot 4)) matched (.spot 4)) tested).env.push).env

theorem reached_assigned : Reached context method (.expr (assigned 4 6)) matchedEnv :=
  (((((((((Reached.start rfl).enter .restStmts).enter .firstStmt).enter .ifBranches).enter
    .thenBranch).enter .blockStmts).enter .restStmts).enter .firstStmt)).enter .stmtExpr

end Reassigning

/-- The parameter `b` and the local `x` keep their annotations, and `q` forgets its own. -/
theorem explicit_annotations_reassigning :
    Reassigning.unit.validate = .ok Reassigning.unit ∧
      KeepsAnnotation Reassigning.context Reassigning.method ⟨2⟩ .bound none Reassigning.start ∧
      KeepsAnnotation Reassigning.context Reassigning.method ⟨3⟩ .closed (some (.spot 3))
        (exec Reassigning.context Reassigning.declared Reassigning.start).env ∧
      ForgetsAnnotation Reassigning.context Reassigning.method ⟨4⟩ .closed (some "Term")
        (bindPattern Reassigning.context .inherit none Reassigning.matched
          Reassigning.tested).env := by
  obtain ⟨hparams, -, -⟩ := explicit_annotations {} (u := Reassigning.unit) rfl
    (m := Reassigning.method) List.mem_cons_self (l := .bound) (by decide)
  obtain ⟨-, hlocals, hvariables⟩ := explicit_annotations {} (u := Reassigning.unit) rfl
    (m := Reassigning.method) List.mem_cons_self (l := .closed) (by decide)
  refine ⟨rfl, hparams _ (List.mem_cons_of_mem _ List.mem_cons_self) rfl,
    hlocals Reassigning.reached_declared rfl ?_, hvariables Reassigning.reached_matched rfl rfl⟩
  rintro _ ⟨⟩
  decide

/-- **A variable of a pattern need not keep its annotation.** Assigning a bound value to the closed
variable `q` makes it bound, and nothing is found there; the value assigned to the closed local `x`
is found too weak, and so is `q` itself where it is returned. -/
theorem annotation_forgotten :
    Reassigning.unit.validate = .ok Reassigning.unit ∧
      (bindPattern Reassigning.context .inherit none Reassigning.matched
        Reassigning.tested).env.level? ⟨4⟩ = some (.level .closed) ∧
      Reached Reassigning.context Reassigning.method (.expr (Reassigning.assigned 4 6))
        Reassigning.matchedEnv ∧
      Reassigning.matchedEnv.level? ⟨4⟩ = some (.level .closed) ∧
      (eval Reassigning.context (Reassigning.assigned 4 6) Reassigning.matchedEnv).env.level? ⟨4⟩ =
        some (.level .bound) ∧
      Event.diagnostics (runLog {} Reassigning.unit) =
        [.levelMismatch (.spot 5) .closed .bound, .levelMismatch (.spot 7) .closed .bound] := by
  refine ⟨rfl, by decide, Reassigning.reached_assigned, ?_, ?_, ?_⟩ <;> decide

end Closedness
