import Closedness.Proofs.Merging
import Closedness.Proofs.Origins
import Closedness.Proofs.Positions

/-!
# Unverified values

Nothing is inferred about the result of a method or a component that asks for that, and then
nothing is about whatever such a value becomes part of: a member that inherits from it, a value that
comes from several paths one of which is unverified, a variable it is stored in. `Tainted` collects
these expressions; evaluating them finds them unverified, whatever else they join, and wherever a
level is required of them this is said once (`unverified_stays_unverified`).

A variable that is known to be unverified where an expression starts is so until it is read, if the
expression does not assign to it. In a valid unit no other variable takes its place meanwhile.
-/

namespace Closedness

/-! ## Tainted expressions -/

/-- The expression reads a member that asks for the given binding, through a receiver if it has one:
a component, or the result of a method that nothing but its annotations gives a level. -/
inductive Expr.Reads (model : Model) : Expr → Option Expr → Binding → Prop
  | field {receiver component span b} (hb : model.componentBinding component = b) :
    Reads model (.field receiver component span) receiver b
  | accessor {receiver component args span c b} (hc : model.component? component = some c)
    (hb : c.binding = b) : Reads model (.call receiver component args span) receiver b
  | method {receiver method args span entry b} (hentry : model.method? method = some entry)
    (hb : entry.returns = b)
    (htype : b = .level .inherit → model.explicitTypeLevel? entry.decl.returnType = none) :
    Reads model (.call receiver method args span) receiver b

/-- The value of an expression, evaluated in an environment, is or may be an unverified one. A
variable is unverified if it is so there, or all along. -/
inductive Tainted (ctx : Context) (unverified : DeclId → Prop) : Env → Expr → Prop
  | var {env id span} (h : unverified id ∨ env.level? id = some .unchecked) :
    Tainted ctx unverified env (.var id span)
  | member {env e receiver} (h : e.Reads ctx.model receiver .noInherit) :
    Tainted ctx unverified env e
  | inherited {env e receiver} (h : e.Reads ctx.model (some receiver) (.level .inherit))
    (hreceiver : Tainted ctx unverified env receiver) : Tainted ctx unverified env e
  | paren {env inner span} (h : Tainted ctx unverified env inner) :
    Tainted ctx unverified env (.paren inner span)
  | assign {env target value span} (h : Tainted ctx unverified env value) :
    Tainted ctx unverified env (.assign target value span)
  | thenExpr {env condition thenExpr elseExpr span}
    (h : Tainted ctx unverified (eval ctx condition env).env thenExpr) :
    Tainted ctx unverified env (.conditional condition thenExpr elseExpr span)
  | elseExpr {env condition thenExpr elseExpr span}
    (h : Tainted ctx unverified (eval ctx condition env).env elseExpr) :
    Tainted ctx unverified env (.conditional condition thenExpr elseExpr span)
  | arm {env scrutinee arms span label e armSpan} (harm : .mk label (.expr e) armSpan ∈ arms)
    (h : Tainted ctx unverified
      (bindLabel ctx (eval ctx scrutinee env).value label
        (eval ctx scrutinee env).env.push).env e) :
    Tainted ctx unverified env (.switch scrutinee arms span)

/-! ## Levels -/

namespace ValueLevel

/-- An unverified path makes the join unverified. -/
@[simp] theorem unchecked_meet (l : ValueLevel) : meet .unchecked l = .unchecked := by
  cases l <;> rfl

@[simp] theorem meet_unchecked (l : ValueLevel) : meet l .unchecked = .unchecked := by
  rw [meet_comm, unchecked_meet]

/-- So does an unverified one among many. -/
theorem foldl_meet_unchecked (levels : List ValueLevel) :
    levels.foldl meet .unchecked = .unchecked := by
  induction levels with
  | nil => rfl
  | cons l rest ih => rw [List.foldl_cons, unchecked_meet, ih]

/-- One unverified path makes the value unverified. -/
theorem meetAll_unchecked {levels : List ValueLevel} (h : .unchecked ∈ levels) :
    meetAll levels = .unchecked := by
  obtain ⟨before, after, rfl⟩ := List.append_of_mem h
  cases before with
  | nil => exact foldl_meet_unchecked after
  | cons first rest =>
    rw [List.cons_append, meetAll, List.foldl_append, List.foldl_cons, meet_unchecked,
      foldl_meet_unchecked]

end ValueLevel

/-- In a valid unit what is declared as a method is no component. -/
theorem Model.component?_eq_none {names : Names} {u : CompilationUnit} (hu : u.validate = .ok u)
    {id : DeclId} {entry : MethodEntry} (h : (ofUnit names u).method? id = some entry) :
    (ofUnit names u).component? id = none := by
  have hmethod : id ∈ (ofUnit names u).methods.keys :=
    Table.get?_isSome_iff.1 (Option.isSome_of_eq_some h)
  refine Table.get?_eq_none_iff.2 fun hcomponent => ?_
  exact (List.nodup_append.1 (tabulates hu).nodup).2.2 id (List.mem_append_right _ hcomponent) id
    (List.mem_append_left _ hmethod) rfl

theorem Expr.Reads.enters {ctx : Context} {e receiver : Expr} {b : Binding}
    (h : e.Reads ctx.model (some receiver) b) (env : Env) :
    Enters ctx (.expr e) env (.expr receiver) env := by
  cases h with
  | field _ => exact .fieldReceiver
  | accessor _ _ => exact .callReceiver
  | method _ _ _ => exact .callReceiver

/-- What is read has the level that its binding gives it, through the receiver if there is one. -/
theorem Expr.Reads.level {ctx : Context}
    (hmethod : ∀ {id entry}, ctx.model.method? id = some entry → ctx.model.component? id = none)
    {e : Expr} {receiver : Option Expr} {b : Binding} (h : e.Reads ctx.model receiver b)
    (env : Env) :
    ∃ r, (eval ctx e env).value.level = Model.memberLevel b r ∧
      ∀ e', receiver = some e' → r = some (eval ctx e' env).value.level := by
  have hreceiver : ∀ e', receiver = some e' →
      (evalOption ctx receiver env).value = some (eval ctx e' env).value.level := by
    rintro e' rfl
    rw [evalOption]
    rfl
  cases h with
  | field hb =>
    refine ⟨some ((evalOption ctx receiver env).value.getD ctx.selfLevel), ?_, fun e' he' => ?_⟩
    · rw [eval, ← hb]
      rfl
    · rw [hreceiver e' he', Option.getD_some]
  | accessor hc hb =>
    refine ⟨some ((evalOption ctx receiver env).value.getD ctx.selfLevel), ?_, fun e' he' => ?_⟩
    · rw [eval, ← hb]
      simp only [Walk.bind_apply, Walk.pure_apply, Model.callResult, hc, Model.accessLevel,
        Model.componentBinding]
      rfl
    · rw [hreceiver e' he', Option.getD_some]
  | @method _ _ _ _ entry _ hentry hb htype =>
    refine ⟨(evalOption ctx receiver env).value.or
      (if entry.decl.isStatic then none else ctx.self), ?_, fun e' he' => ?_⟩
    · rw [eval]
      simp only [Walk.bind_apply, Walk.pure_apply, Model.callResult, hmethod hentry, hentry,
        Model.callLevel]
      split
      · next hreturns hlevel =>
        rw [htype (hb.symm.trans hreturns)] at hlevel
        cases hlevel
      · rw [hb]
    · rw [hreceiver e' he', Option.some_or]

/-! ## Evaluating tainted expressions -/

/-- A walk leaves the level of a variable that it does not assign to. -/
theorem Env.Evolves.level? {declared assigned : List DeclId} {before after : Env}
    (h : Evolves declared assigned before after) {id : DeclId} (hid : id ∉ assigned)
    {l : ValueLevel} (hl : before.level? id = some l) : after.level? id = some l := by
  obtain ⟨s, hs, rfl⟩ := Option.map_eq_some_iff.1 hl
  obtain ⟨level, hafter, rfl | ⟨-, hassigned⟩⟩ := h.kept hs
  · rw [Env.level?, hafter]
    rfl
  · exact absurd hassigned hid

/-- The variables are unverified where a part starts, and it assigns to none of them. -/
def Part.Spares (p : Part) (unverified : DeclId → Prop) (env : Env) : Prop :=
  ∀ id, unverified id → env.level? id = some .unchecked ∧ id ∉ p.assigned

namespace Part.Spares

variable {unverified : DeclId → Prop} {p q : Part} {env : Env}

theorem of_subset (h : p.Spares unverified env) (hsub : q.assigned ⊆ p.assigned) :
    q.Spares unverified env :=
  fun id hid => (h id hid).imp_right (mt (hsub ·))

theorem push (h : p.Spares unverified env) : p.Spares unverified env.push := h

end Part.Spares

section Reached

variable {config : Config} {u : CompilationUnit} (hu : u.validate = .ok u) {m : Method}
  (hm : m ∈ u.allMethods)
include hu hm

/-- What a part spares is spared where a next part of it is entered, after a first. -/
theorem Reached.spares_after {unverified : DeclId → Prop} {p first next : Part} {env start : Env}
    (h : Reached (config.context u m) m p env) (hspares : p.Spares unverified start)
    (hfirst : Enters (config.context u m) p env first start)
    (hnext : Enters (config.context u m) p env next (first.run (config.context u m) start).env) :
    next.Spares unverified (first.run (config.context u m) start).env := by
  have hevolves := first.run_evolves (config.context u m) start ((h.enter hfirst).fresh hu hm)
  intro id hid
  obtain ⟨hlevel, hassigned⟩ := hspares id hid
  exact ⟨hevolves.level? (mt (hfirst.assigned_subset ·) hassigned) hlevel,
    mt (hnext.assigned_subset ·) hassigned⟩

/-- **A tainted expression is unverified.** -/
theorem Tainted.level {unverified : DeclId → Prop} {env : Env} {e : Expr}
    (h : Tainted (config.context u m) unverified env e)
    (hreached : Reached (config.context u m) m (.expr e) env)
    (hspares : (Part.expr e).Spares unverified env) :
    (eval (config.context u m) e env).value.level = .unchecked := by
  have hmethod : ∀ {id entry}, (config.context u m).model.method? id = some entry →
      (config.context u m).model.component? id = none := Model.component?_eq_none hu
  -- the unverified variables are so at each point on the way to where they are read
  induction h with
  | @var env id span h =>
    have hlevel : env.level? id = some .unchecked := h.elim (fun h => (hspares id h).1) fun h => h
    rw [eval]
    simp only [Walk.bind_apply, readVariable_apply, Walk.pure_apply, hlevel, Option.getD_some]
  | @member env e receiver h =>
    obtain ⟨r, hlevel, -⟩ := h.level hmethod env
    exact hlevel
  | @inherited env e receiver h _ ih =>
    obtain ⟨r, hlevel, hr⟩ := h.level hmethod env
    have hstep := h.enters env
    rw [hlevel, hr receiver rfl,
      ih (hreached.enter hstep) (hspares.of_subset hstep.assigned_subset)]
    rfl
  | paren _ ih =>
    rw [eval]
    exact ih (hreached.enter .paren) hspares
  | assign _ ih =>
    rw [eval]
    exact ih (hreached.enter .assignValue) (hspares.of_subset (List.subset_append_left ..))
  | thenExpr _ ih =>
    have hlevel := ih (hreached.enter .thenExpr)
      (hreached.spares_after hu hm hspares .condition .thenExpr)
    rw [eval]
    simp only [Walk.bind_apply, Walk.fork_apply, Walk.pure_apply, hlevel,
      ValueLevel.unchecked_meet]
  | elseExpr _ ih =>
    have hlevel := ih (hreached.enter .elseExpr)
      (hreached.spares_after hu hm hspares .condition .elseExpr)
    rw [eval]
    simp only [Walk.bind_apply, Walk.fork_apply, Walk.pure_apply, hlevel,
      ValueLevel.meet_unchecked]
  | arm harm _ ih =>
    have harmReached := hreached.enter (.arm harm)
    have harmSpares := hreached.spares_after hu hm hspares .scrutinee (.arm harm)
    have hbodySpares := harmReached.spares_after hu hm harmSpares.push .label .body
    have hlevel := ih ((harmReached.enter .body).enter .bodyExpr)
      (hbodySpares.of_subset (List.Subset.refl _))
    rw [level_eval_switch]
    refine ValueLevel.meetAll_unchecked (List.mem_filterMap.2 ⟨_, harm, ?_⟩)
    rw [Part.value_arm_expr, hlevel]

end Reached

/-! ## Unverified values where they stand -/

/-- What becomes of an unverified value that an expression gives in an environment. -/
structure StaysUnverified (ctx : Context) (env : Env) (e : Expr) : Prop where
  level : (eval ctx e env).value.level = .unchecked
  /-- A local without pin is unverified once it is initialised. -/
  initialised : ∀ (decl : LocalDecl) (span : Span), ∃ s,
    (exec ctx (.declare decl (some e) span) env).env.get? decl.id = some s ∧
      (s.pinned = none → s.level = .unchecked)
  /-- A variable without pin is unverified once it is assigned to. -/
  assigned : ∀ (target : DeclId) (span : Span) (s : VarState),
    (eval ctx e env).env.get? target = some s → s.pinned = none →
      (eval ctx (.assign target e span) env).env.level? target = some .unchecked
  /-- Wherever a level is required this is said, and nothing else. -/
  finds : FindsAt ctx env e fun required =>
    (required.filter Level.isExplicit).toList.map (Diagnostic.uncheckedInference e.span)

/-- About an unverified value, a position that asks for something reports just that it is. -/
theorem diagnostics_positionLog_unchecked (options : Options) (required : Option Level)
    (site : Site) (span : Span) :
    Event.diagnostics (positionLog options required .unchecked site span) =
      (required.filter Level.isExplicit).toList.map (Diagnostic.uncheckedInference span) := by
  rcases required with _ | _ | _ | _ <;> rfl

/-- An unverified value stays so. -/
theorem StaysUnverified.of_level {ctx : Context} {env : Env} {e : Expr}
    (h : (eval ctx e env).value.level = .unchecked) : StaysUnverified ctx env e where
  level := h
  initialised decl span := by
    rw [exec]
    simp only [Walk.bind_apply, resolveVariable_apply, initLocal_apply]
    refine ⟨_, Env.get?_declare_self .., fun hpinned => ?_⟩
    obtain hlevel | ⟨type, hlevel⟩ := Context.level_initialState hpinned
    · exact hlevel
    · rw [hlevel, h]
      rfl
  assigned target span s hs hpinned := by
    rw [eval_assign_plain hs hpinned, Env.level?, Env.get?_assign, hs, Option.map_some,
      Option.map_some, if_pos rfl, h]
    rfl
  finds := by
    refine .of_judged ?_ fun required site => ?_
    · rw [h]
      rfl
    · rw [h]
      exact diagnostics_positionLog_unchecked ..

/-- **An unverified value stays unverified.** Wherever the walk through a method of a valid unit
evaluates a tainted expression, where variables count that are unverified there and that the
expression does not assign to, its value is unverified, stays so where it is stored, and is said to
be so just once where a level is required of it. -/
theorem unverified_stays_unverified (config : Config) {u : CompilationUnit}
    (hu : u.validate = .ok u) {m : Method} (hm : m ∈ u.allMethods) {e : Expr} {env : Env}
    (hreached : Reached (config.context u m) m (.expr e) env)
    (h : Tainted (config.context u m)
      (fun id => env.level? id = some .unchecked ∧ id ∉ e.assigned) env e) :
    StaysUnverified (config.context u m) env e :=
  .of_level (h.level hu hm hreached fun _ hid => hid)

/-! ## A member of an unverified result -/

namespace Reviewed

/-- `c ? null : source().inner` -/
def value : Expr :=
  .conditional (.var ⟨2⟩ (.spot 3)) (.null (.spot 4))
    (.field (some (.call none ⟨3⟩ [] (.spot 5))) ⟨21⟩ (.spot 5)) (.spot 3)

/-- A static method with annotations, parameters and a body. -/
def static (id : UInt32) (annots : List Annot) (type : String) (params : List Param)
    (body : Option Block) : Method :=
  { id := ⟨id⟩, name := "m", isStatic := true, annots, returnType := some type, params, body,
    span := .spot 0 }

def marker (name : String) : Annot :=
  { name, span := .spot 0 }

/-- `@Closed Leaf m(boolean c) { return c ? null : source().inner; }` -/
def method : Method :=
  static 1 [marker "Closed"] "Leaf"
    [{ id := ⟨2⟩, name := "c", type := "boolean", annots := [], isVarargs := false,
       span := .spot 1 }]
    (some (.mk [.ret (some value) (.spot 2)] (.spot 2)))

/-- `record Box(Leaf inner)`, with `@NoInherit Box source()` and the method. -/
def unit : CompilationUnit :=
  { name := "reviewed"
    types := [
      { id := ⟨20⟩
        name := "Box"
        annots := []
        shape := .record [
          { id := ⟨21⟩, name := "inner", type := "Leaf", annots := [], span := .spot 0 }]
        supertypes := []
        methods := []
        span := .spot 0 }]
    methods := [method, static 3 [marker "NoInherit"] "Box" [] none] }

/-- The context in which the method is walked. -/
def context : Context :=
  ({} : Config).context unit method

def start : Env :=
  Env.ofParams context.model method.params

end Reviewed

/-- A member of a result that is to be reviewed is unverified, also on one of two paths, and this is
all that is found where it is returned. -/
theorem unverified_stays_unverified_reviewed :
    Reviewed.unit.validate = .ok Reviewed.unit ∧
      Reached Reviewed.context Reviewed.method (.expr Reviewed.value) Reviewed.start ∧
      StaysUnverified Reviewed.context Reviewed.start Reviewed.value ∧
      Event.diagnostics (exec Reviewed.context (.ret (some Reviewed.value) (.spot 2))
        Reviewed.start).log = [.uncheckedInference (.spot 3) .closed] := by
  have hreached : Reached Reviewed.context Reviewed.method (.expr Reviewed.value) Reviewed.start :=
    ((Reached.start rfl).enter .firstStmt).enter .returned
  have htainted : Tainted Reviewed.context (fun id =>
      Reviewed.start.level? id = some .unchecked ∧ id ∉ Reviewed.value.assigned) Reviewed.start
      Reviewed.value :=
    .elseExpr (.inherited (.field rfl) (.member (.method rfl rfl (by rintro ⟨⟩))))
  have hstays := unverified_stays_unverified {} (u := Reviewed.unit) rfl
    (List.mem_append_right _ List.mem_cons_self) hreached htainted
  exact ⟨rfl, hreached, hstays, (hstays.finds.returned (.spot 2)).trans (by decide)⟩

end Closedness
