import Closedness.Proofs.Judgements
import Closedness.Proofs.Points
import Closedness.Proofs.Simulation
import Mathlib.Logic.Relation

/-!
# Walking with less knowledge

A `Weakening` relates the levels of two walks through the same code, the second of which may know
less, and says that the elementary operations keep them related: reading members, matching,
joining paths, storing into a variable, and judging, where a mismatch of the first walk follows on
the second (`Judgement.Follows`). Two walks from environments related in this way judge the same
positions in the same order, and every mismatch of the first follows on the second
(`execAll_weakens`).

Storing is the one operation that need not keep levels related: a variable without pin that is given
a value of unknown level takes that of its type. So a weakening may ask something of what the two
walks store, and that has to hold wherever they get to (`Weakening.Steady`).
-/

namespace Closedness

/-! ## What two walks store -/

/-- Walking a part of a body from an environment comes to another part, in another environment. -/
abbrev Reaches (ctx : Context) (p : Part) (env : Env) (q : Part) (env' : Env) : Prop :=
  Relation.ReflTransGen (fun a b : Part × Env => Enters ctx a.1 a.2 b.1 b.2) (p, env) (q, env')

/-- If the part itself gives a value to a variable without pin, then the values it gives from the
two environments, and the level that the variable takes in the second, are related. -/
def Part.Stores (ctx : Context) (related : ValueLevel → ValueLevel → ValueLevel → Prop) :
    Part → Env → Env → Prop
  | .expr (.assign target value _), env, env' =>
    let given := eval ctx value env
    let given' := eval ctx value env'
    ∀ s, given'.env.get? target = some s → s.pinned = none →
      related given.value.level given'.value.level (ctx.plainLevel given'.value.level s.type)
  | .stmt (.declare decl (some init) _), env, env' =>
    let given := eval ctx init env
    let given' := eval ctx init env'
    let state := ctx.initialState decl (ctx.names.resolve decl.annots) init given'.value.level
      given'.env
    state.pinned = none → related given.value.level given'.value.level state.level
  | _, _, _ => True

theorem Part.Stores.imp {P Q : ValueLevel → ValueLevel → ValueLevel → Prop}
    (hPQ : ∀ given given' taken, P given given' taken → Q given given' taken) {ctx : Context}
    {p : Part} {env env' : Env} (h : p.Stores ctx P env env') : p.Stores ctx Q env env' := by
  unfold Part.Stores at h ⊢
  split
  · exact fun s hs hpinned => hPQ _ _ _ (h s hs hpinned)
  · exact fun hpinned => hPQ _ _ _ (h hpinned)
  · trivial

theorem Part.stores_true (ctx : Context) (p : Part) (env env' : Env) :
    p.Stores ctx (fun _ _ _ => True) env env' := by
  unfold Part.Stores
  split
  · exact fun _ _ _ => trivial
  · exact fun _ => trivial
  · trivial

/-! ## Weakenings -/

/-- Levels of two walks that the elementary operations keep related, and what excuses the second
walk where it finds no mismatch and the first one does. -/
structure Weakening (ctx : Context) where
  level : ValueLevel → ValueLevel → Prop
  excused : Judgement → Prop
  /-- What is asked of the values that the walks store and of the level taken by the second. -/
  stored : ValueLevel → ValueLevel → ValueLevel → Prop
  null : level .null .null
  unchecked : level .unchecked .unchecked
  ofLevel : ∀ l, level (.level l) (.level l)
  self : ∀ {l}, ctx.self = some l → level l l
  meet : ∀ {a a' b b'}, level a a' → level b b' → level (a.meet b) (a'.meet b')
  inheritedFrom : ∀ {l l'}, level l l' → level l.inheritedFrom l'.inheritedFrom
  matched : ∀ {l l'}, level l l' → level l.matched l'.matched
  plainLevel : ∀ {l l'} type, level l l' → stored l l' (ctx.plainLevel l' type) →
    level (ctx.plainLevel l type) (ctx.plainLevel l' type)
  judged : ∀ {j : Judgement} {l'}, level j.value l' → j.Follows excused { j with value := l' }

namespace Weakening

variable {ctx : Context}

/-- A variable of the two walks. -/
structure State (W : Weakening ctx) (s s' : VarState) : Prop where
  level : W.level s.level s'.level
  pinned : s'.pinned = s.pinned
  pinnedAt : s'.pinnedAt = s.pinnedAt
  type : s'.type = s.type

/-- Logs of the two walks: they judge the same positions, complain just about these, and the
mismatches of the first follow on the second. -/
structure Compares (W : Weakening ctx) (log log' : List Event) : Prop where
  complains : Event.Complains log
  complains' : Event.Complains log'
  follows : List.Forall₂ (Judgement.Follows W.excused) (Event.judgements log)
    (Event.judgements log')

namespace Compares

variable {W : Weakening ctx}

theorem ofSilent {log log' : List Event} (h : Event.Silent log) (h' : Event.Silent log') :
    W.Compares log log' := by
  refine ⟨h.complains, h'.complains, ?_⟩
  rw [h.judgements, h'.judgements]
  exact .nil

theorem append {a a' b b' : List Event} (ha : W.Compares a a') (hb : W.Compares b b') :
    W.Compares (a ++ b) (a' ++ b') := by
  refine ⟨ha.complains.append hb.complains, ha.complains'.append hb.complains', ?_⟩
  rw [Event.judgements_append, Event.judgements_append]
  exact List.rel_append ha.follows hb.follows

/-- Judging related levels gives logs that compare. -/
theorem judgementLog (options : Options) (r : Level) {l l' : ValueLevel} (h : W.level l l')
    (site : Site) (span : Span) :
    W.Compares (Closedness.judgementLog options r l site span)
      (Closedness.judgementLog options r l' site span) := by
  refine ⟨Event.complains_judgementLog .., Event.complains_judgementLog .., ?_⟩
  rw [Event.judgements_judgementLog, Event.judgements_judgementLog]
  exact .cons (W.judged h) .nil

theorem positionLog (options : Options) (required : Option Level) {l l' : ValueLevel}
    (h : W.level l l') (site : Site) (span : Span) :
    W.Compares (Closedness.positionLog options required l site span)
      (Closedness.positionLog options required l' site span) := by
  cases required with
  | none => exact .ofSilent .nil .nil
  | some r => exact .judgementLog options r h site span

end Compares

/-- Walks with related levels simulate each other. -/
def simulation (W : Weakening ctx) : Simulation where
  state _ := W.State
  log := W.Compares
  join hs ht := ⟨W.meet hs.level ht.level, hs.pinned, hs.pinnedAt, hs.type⟩
  nil := .ofSilent .nil .nil
  append := .append

/-- Environments with the same variables, pinned alike, and related levels. -/
abbrev Envs (W : Weakening ctx) (env env' : Env) : Prop :=
  Env.Rel W.simulation.state env env'

/-- Wherever both walks get to from here, what they store is as asked. -/
def Steady (W : Weakening ctx) (p p' : Part) (env env' : Env) : Prop :=
  ∀ q e e', Reaches ctx p env q e → Reaches ctx p' env' q e' → q.Stores ctx W.stored e e'

theorem Steady.enter {W : Weakening ctx} {p p' q q' : Part} {env env' e e' : Env}
    (h : W.Steady p p' env env') (hstep : Enters ctx p env q e)
    (hstep' : Enters ctx p' env' q' e') : W.Steady q q' e e' :=
  fun r f f' hr hr' => h r f f' (.head hstep hr) (.head hstep' hr')

theorem Steady.stores {W : Weakening ctx} {p : Part} {env env' : Env}
    (h : W.Steady p p env env') : p.Stores ctx W.stored env env' :=
  h p env env' .refl .refl

/-! ## What the tables give -/

section Tables

variable (W : Weakening ctx)

theorem getD_level {o o' : Option ValueLevel} (h : Option.Rel W.level o o') {l l' : ValueLevel}
    (hl : W.level l l') : W.level (o.getD l) (o'.getD l') := by
  cases h with
  | none => exact hl
  | some h => exact h

/-- The level of the object whose method runs is related to itself. -/
theorem selfLevel : W.level ctx.selfLevel ctx.selfLevel := by
  unfold Context.selfLevel
  cases hs : ctx.self with
  | none => exact W.ofLevel _
  | some l => exact W.self hs

/-- A member that is read through related receivers has related levels. -/
theorem memberLevel (b : Binding) {r r' : Option ValueLevel} (h : Option.Rel W.level r r') :
    W.level (Model.memberLevel b r) (Model.memberLevel b r') := by
  match b, h with
  | .noInherit, _ => exact W.unchecked
  | .level .inherit, .some h => exact W.inheritedFrom h
  | .level .inherit, .none => exact W.ofLevel _
  | .level .bound, _ => exact W.ofLevel _
  | .level .closed, _ => exact W.ofLevel _

/-- A component that is read out of related values has related levels. -/
theorem accessLevel (component : DeclId) {r r' : ValueLevel} (h : W.level r r') :
    W.level (ctx.model.accessLevel component r) (ctx.model.accessLevel component r') :=
  W.memberLevel _ (.some h)

/-- A call through related receivers gives related levels. -/
theorem callLevel (method : DeclId) {r r' : Option ValueLevel} (h : Option.Rel W.level r r') :
    W.level (ctx.model.callLevel method r) (ctx.model.callLevel method r') := by
  unfold Model.callLevel
  cases ctx.model.method? method with
  | none => exact W.memberLevel _ h
  | some m =>
    simp only
    generalize ctx.model.explicitTypeLevel? m.decl.returnType = type
    match m.returns, type with
    | .level .inherit, some l => exact W.ofLevel l
    | .level .inherit, none => exact W.memberLevel _ h
    | .level .bound, _ => exact W.memberLevel _ h
    | .level .closed, _ => exact W.memberLevel _ h
    | .noInherit, _ => exact W.memberLevel _ h

/-- The same for a call that may read a component, or be meant for the object itself. -/
theorem callResult (callee : DeclId) {r r' : Option ValueLevel} (h : Option.Rel W.level r r') :
    W.level (ctx.model.callResult callee r ctx.self)
      (ctx.model.callResult callee r' ctx.self) := by
  unfold Model.callResult
  cases ctx.model.component? callee with
  | some c => exact W.accessLevel callee (W.getD_level h W.selfLevel)
  | none =>
    cases ctx.model.method? callee with
    | none => exact W.ofLevel _
    | some m =>
      refine W.callLevel callee ?_
      cases h with
      | some h => exact .some h
      | none =>
        show Option.Rel W.level (if m.decl.isStatic then none else ctx.self)
          (if m.decl.isStatic then none else ctx.self)
        split
        · exact .none
        · cases hs : ctx.self with
          | none => exact .none
          | some l => exact .some (W.self hs)

/-- Values constructed on the spot: the same variant, from related values. -/
def Built (b b' : Construction) : Prop :=
  b'.variant = b.variant ∧ List.Forall₂ W.level b.args b'.args

theorem getElem?_level {ls ls' : List ValueLevel} (h : List.Forall₂ W.level ls ls') (index : Nat) :
    Option.Rel W.level ls[index]? ls'[index]? := by
  induction h generalizing index with
  | nil => exact .none
  | cons hl _ ih =>
    cases index with
    | zero => exact .some hl
    | succ n => exact ih n

/-- Values that pass the same test stay related. -/
theorem narrow (declared : Level) {l l' : ValueLevel} (h : W.level l l') :
    W.level (l.narrow declared) (l'.narrow declared) := by
  unfold ValueLevel.narrow
  split
  · exact W.ofLevel declared
  · exact h

/-- A component gets related levels, read or seen in the construction. -/
theorem matchedLevel (variant : DeclId) {l l' : ValueLevel} (hl : W.level l l')
    {b b' : Option Construction} (hb : Option.Rel W.Built b b') (index : Nat) :
    W.level (ctx.model.matchedLevel variant l b index)
      (ctx.model.matchedLevel variant l' b' index) := by
  have harg : Option.Rel W.level
      ((b.filter fun b => b.variant = variant).bind fun b => b.args[index]?)
      ((b'.filter fun b => b.variant = variant).bind fun b => b.args[index]?) := by
    cases hb with
    | none => exact .none
    | some h =>
      obtain ⟨hvariant, hargs⟩ := h
      simp only [Option.filter_some, hvariant]
      split
      · exact W.getElem?_level hargs index
      · exact .none
  unfold Model.matchedLevel
  generalize (ctx.model.componentBindings variant)[index]?.map Prod.snd = binding
  generalize (b.filter fun b => b.variant = variant).bind (fun b => b.args[index]?) = arg,
    (b'.filter fun b => b.variant = variant).bind (fun b => b.args[index]?) = arg' at harg
  match binding with
  | some .noInherit => exact W.unchecked
  | some (.level .bound) => exact W.ofLevel _
  | some (.level .closed) => exact W.ofLevel _
  | some (.level .inherit) | none =>
    cases harg with
    | none => exact W.inheritedFrom hl
    | some h => exact h

/-- A pattern variable takes related levels from related values. -/
theorem levelFor (binding : Option Binding) {l l' : ValueLevel} (h : W.level l l') :
    W.level (PatternVar.levelFor binding l) (PatternVar.levelFor binding l') := by
  match binding with
  | some .noInherit => exact W.unchecked
  | some (.level .inherit) | none => exact W.matched h
  | some (.level .bound) => exact W.ofLevel _
  | some (.level .closed) => exact W.ofLevel _

end Tables

/-! ## Steps -/

section Steps

variable {W : Weakening ctx} {env env' : Env}

/-- Reading a variable gives related levels. -/
theorem readVariable_weakens (h : W.Envs env env') (id : DeclId) :
    (readVariable id).Simulates W.simulation W.level (readVariable id) env env' := by
  refine ⟨?_, h, W.simulation.nil⟩
  simp only [readVariable_apply, Env.level?]
  obtain ⟨hs, hs'⟩ | ⟨s, s', hs, hs', hstate⟩ := h.get?_cases id
  · rw [hs, hs']
    exact W.ofLevel _
  · rw [hs, hs']
    exact hstate.level

theorem resolveVariable_weakens (h : W.Envs env env') (id : DeclId) (annots : List Annot) :
    (resolveVariable ctx id annots).Simulates W.simulation
      (fun r r' => r = ctx.names.resolve annots ∧ r' = ctx.names.resolve annots)
      (resolveVariable ctx id annots) env env' := by
  have hsilent := Event.Silent.ofConflicts id (ctx.names.resolve annots).conflicts
  refine ⟨⟨?_, ?_⟩, ?_, ?_⟩ <;> simp only [resolveVariable_apply]
  · exact h
  · exact .ofSilent hsilent hsilent

/-- Judging related levels gives logs that compare. -/
theorem checkAgainst_weakens (h : W.Envs env env') (required : Option Level) {l l' : ValueLevel}
    (hl : W.level l l') (site : Site) (span : Span) :
    (checkAgainst ctx required l site span).Simulates W.simulation (fun _ _ => True)
      (checkAgainst ctx required l' site span) env env' := by
  refine ⟨trivial, ?_, ?_⟩ <;> simp only [checkAgainst_apply]
  · exact h
  · exact .positionLog ctx.options required hl site span

/-- A pinned variable judges the value; any other takes its level, unless it takes that of its
type. -/
theorem assignVariable_weakens (h : W.Envs env env') (target : DeclId) {l l' : ValueLevel}
    (hl : W.level l l') (span : Span)
    (hstored : ∀ s, env'.get? target = some s → s.pinned = none →
      W.stored l l' (ctx.plainLevel l' s.type)) :
    (assignVariable ctx target l span).Simulates W.simulation (fun _ _ => True)
      (assignVariable ctx target l' span) env env' := by
  obtain ⟨hs, hs'⟩ | ⟨s, s', hs, hs', hstate⟩ := h.get?_cases target
  · refine ⟨trivial, ?_, ?_⟩ <;>
      simp only [assignVariable_apply, Context.assigned, assignmentLog, hs, hs']
    · exact h
    · exact W.simulation.nil
  · cases hp : s.pinned with
    | some p =>
      have hp' : s'.pinned = some p := hstate.pinned.trans hp
      refine ⟨trivial, ?_, ?_⟩ <;>
        simp only [assignVariable_apply, Context.assigned, assignmentLog, hs, hs', hp, hp']
      · exact h
      · exact (Compares.judgementLog ctx.options p hl _ span).append
          (.ofSilent (.redundancyLog ..) (.redundancyLog ..))
    | none =>
      have hp' : s'.pinned = none := hstate.pinned.trans hp
      have hplain := W.plainLevel s'.type hl (hstored s' hs' hp')
      refine ⟨trivial, ?_, ?_⟩ <;>
        simp only [assignVariable_apply, Context.assigned, assignmentLog, hs, hs', hp, hp']
      · rw [← hstate.type]
        exact h.assign fun ht => ⟨hplain, ht.pinned, ht.pinnedAt, ht.type⟩
      · exact W.simulation.nil

theorem ofBinding_weakens (b : Binding) (span : Option Span) (type : Option String) :
    W.State (.ofBinding b span type) (.ofBinding b span type) := by
  match b with
  | .noInherit => exact ⟨W.unchecked, rfl, rfl, rfl⟩
  | .level .inherit => exact ⟨W.ofLevel _, rfl, rfl, rfl⟩
  | .level .bound => exact ⟨W.ofLevel _, rfl, rfl, rfl⟩
  | .level .closed => exact ⟨W.ofLevel _, rfl, rfl, rfl⟩

theorem declareLocal_weakens (h : W.Envs env env') (decl : LocalDecl) (resolution : Resolution) :
    (declareLocal ctx decl resolution).Simulates W.simulation (fun _ _ => True)
      (declareLocal ctx decl resolution) env env' :=
  ⟨trivial, h.declare (ofBinding_weakens ..), W.simulation.nil⟩

/-- A local variable starts in related states, if what is stored is as asked. -/
theorem initialState_weakens {S : StateRel} (htype : ∀ {id s s'}, S id s s' → s'.type = s.type)
    (h : Env.Rel S env env') (decl : LocalDecl) (resolution : Resolution) (init : Expr)
    {l l' : ValueLevel} (hl : W.level l l')
    (hstored : (ctx.initialState decl resolution init l' env').pinned = none →
      W.stored l l' (ctx.initialState decl resolution init l' env').level) :
    W.State (ctx.initialState decl resolution init l env)
      (ctx.initialState decl resolution init l' env') := by
  unfold Context.initialState at hstored ⊢
  rw [h.staticType?_eq htype, h.keepsMarker_eq htype] at *
  generalize decl.type.or (init.staticType? ctx env) = type at *
  have hplain : W.stored l l' (ctx.plainLevel l' type) →
      W.State (.plain (ctx.plainLevel l type) type) (.plain (ctx.plainLevel l' type) type) :=
    fun hstored => ⟨W.plainLevel type hl hstored, rfl, rfl, rfl⟩
  match hb : resolution.binding with
  | some .noInherit => exact ⟨W.unchecked, rfl, rfl, rfl⟩
  | some (.level .inherit) | none =>
    simp only [hb] at hstored
    exact hplain (hstored rfl)
  | some (.level .bound) | some (.level .closed) =>
    simp only [hb] at hstored ⊢
    split
    · exact ⟨W.ofLevel _, rfl, rfl, rfl⟩
    · next hkeep =>
      rw [if_neg hkeep] at hstored
      exact hplain (hstored rfl)

/-- Giving a local variable related first values keeps environments related. -/
theorem initLocal_weakens (h : W.Envs env env') (decl : LocalDecl) (resolution : Resolution)
    (init : Expr) {l l' : ValueLevel} (hl : W.level l l')
    (hstored : (ctx.initialState decl resolution init l' env').pinned = none →
      W.stored l l' (ctx.initialState decl resolution init l' env').level) :
    (initLocal ctx decl resolution init l).Simulates W.simulation (fun _ _ => True)
      (initLocal ctx decl resolution init l') env env' := by
  refine ⟨trivial, ?_, ?_⟩ <;> simp only [initLocal_apply]
  · exact h.declare (initialState_weakens State.type h decl resolution init hl hstored)
  · unfold Context.initialLog
    refine Compares.append ?_ (.ofSilent ⟨rfl, rfl⟩ ⟨rfl, rfl⟩)
    rw [h.keepsMarker_eq State.type]
    split
    · refine ((Compares.judgementLog _ _ hl _ _).append
        (.ofSilent (.redundancyLog ..) (.redundancyLog ..))).append ?_
      split
      · exact .ofSilent .nil .nil
      · exact .ofSilent ⟨rfl, rfl⟩ ⟨rfl, rfl⟩
    · exact .ofSilent .nil .nil

/-- A variant may narrow one of the walks and not the other; that is no complaint. -/
theorem narrowing_weakens (h : W.Envs env env') (declared : Level) (l l' : ValueLevel)
    (span : Span) :
    (Walk.emit (narrowingLog ctx.options declared l span)).Simulates W.simulation (fun _ _ => True)
      (Walk.emit (narrowingLog ctx.options declared l' span)) env env' :=
  .emit h (.ofSilent (.narrowingLog ..) (.narrowingLog ..))

/-- Binding a variable to related levels keeps environments related. -/
theorem bindVariable_weakens (h : W.Envs env env') (var : PatternVar) {l l' : ValueLevel}
    (hl : W.level l l') (type : Option String) :
    (bindVariable ctx var l type).Simulates W.simulation (fun _ _ => True)
      (bindVariable ctx var l' type) env env' := by
  refine ⟨trivial, ?_, ?_⟩ <;> simp only [bindVariable_apply]
  · exact h.declare ⟨W.levelFor _ hl, rfl, rfl, rfl⟩
  · exact .ofSilent (.bindingLog ..) (.bindingLog ..)

end Steps

/-! ## Bodies -/

section Bodies

variable {W : Weakening ctx}

/-- Evaluated expressions of related levels, built alike if they are built on the spot. -/
structure Value (W : Weakening ctx) (v v' : Evaluated) : Prop where
  level : W.level v.level v'.level
  built : Option.Rel W.Built v.built v'.built

theorem Value.ofLevel {l l' : ValueLevel} (h : W.level l l') :
    W.Value { level := l } { level := l' } :=
  ⟨h, .none⟩

mutual

/-- **Matching related values keeps environments related.** -/
theorem bindPattern_weakens : ∀ (p : Pattern) {env env' : Env}, W.Envs env env' →
    ∀ {l l' : ValueLevel}, W.level l l' →
    ∀ {b b' : Option Construction}, Option.Rel W.Built b b' →
    (bindPattern ctx l b p).Simulates W.simulation (fun _ _ => True) (bindPattern ctx l' b' p)
      env env'
  | .typeTest variant var span, _, _, h, l, l', hl, b, b', _ => by
    cases var with
    | none =>
      rw [bindPattern, bindPattern]
      exact (narrowing_weakens h _ l l' span).bind fun _ h => .pure h trivial
    | some var =>
      rw [bindPattern, bindPattern]
      exact (narrowing_weakens h _ l l' span).bind fun _ h =>
        bindVariable_weakens h var (W.narrow _ hl) _
  | .variable var _, _, _, h, l, l', hl, b, b', _ => by
    rw [bindPattern, bindPattern]
    exact bindVariable_weakens h var hl none
  | .record variant components span, _, _, h, l, l', hl, b, b', hb => by
    rw [bindPattern, bindPattern]
    exact (narrowing_weakens h _ l l' span).bind fun _ h =>
      bindComponents_weakens components h (W.matchedLevel variant (W.narrow _ hl) hb) 0
  | .wildcard _, _, _, h, l, l', _, b, b', _ => by
    rw [bindPattern, bindPattern]
    exact .pure h trivial

theorem bindComponents_weakens : ∀ (ps : List Pattern) {env env' : Env}, W.Envs env env' →
    ∀ {level level' : Nat → ValueLevel}, (∀ i, W.level (level i) (level' i)) → ∀ (index : Nat),
    (bindComponents ctx level index ps).Simulates W.simulation (fun _ _ => True)
      (bindComponents ctx level' index ps) env env'
  | [], _, _, h, level, level', _, index => by
    rw [bindComponents, bindComponents]
    exact .pure h trivial
  | p :: rest, _, _, h, level, level', hl, index => by
    rw [bindComponents, bindComponents]
    exact (bindPattern_weakens p h (hl index) .none).bind fun _ h =>
      bindComponents_weakens rest h hl (index + 1)

end

mutual

/-- Evaluating an expression from related environments, if what is stored is as asked. -/
theorem eval_weakens : ∀ (e : Expr) {env env' : Env}, W.Envs env env' →
    W.Steady (.expr e) (.expr e) env env' →
    (eval ctx e).Simulates W.simulation W.Value (eval ctx e) env env'
  | .null _, _, _, h, _ => by rw [eval]; exact .pure h (.ofLevel W.null)
  | .literal _ _, _, _, h, _ => by rw [eval]; exact .pure h (.ofLevel (W.ofLevel _))
  | .var decl _, _, _, h, _ => by
    rw [eval]
    exact (readVariable_weakens h decl).bind fun hl h => .pure h (.ofLevel hl)
  | .self _, _, _, h, _ => by rw [eval]; exact .pure h (.ofLevel W.selfLevel)
  | .field receiver component _, _, _, h, hsteady => by
    rw [eval]
    refine (evalOption_weakens receiver h ?_).bind fun ho h => .pure h (.ofLevel ?_)
    · rintro e rfl
      exact hsteady.enter .fieldReceiver .fieldReceiver
    · exact W.accessLevel component (W.getD_level ho W.selfLevel)
  | .call receiver method args _, _, _, h, hsteady => by
    rw [eval]
    refine (evalOption_weakens receiver h ?_).bind fun ho h => ?_
    · rintro e rfl
      exact hsteady.enter .callReceiver .callReceiver
    · exact (evalArgs_weakens args h (hsteady.enter .callArgs .callArgs)).bind fun _ h =>
        .pure h (.ofLevel (W.callResult method ho))
  | .construct variant args _, _, _, h, hsteady => by
    rw [eval]
    exact (evalArgs_weakens args h (hsteady.enter .constructArgs .constructArgs)).bind
      fun hargs h => .pure h ⟨W.ofLevel _, .some ⟨rfl, hargs⟩⟩
  | .singleton variant _, _, _, h, _ => by rw [eval]; exact .pure h (.ofLevel (W.ofLevel _))
  | .paren inner _, _, _, h, hsteady => by
    rw [eval]
    exact eval_weakens inner h (hsteady.enter .paren .paren)
  | .instanceOf operand pattern _, _, _, h, hsteady => by
    rw [eval]
    refine (eval_weakens operand h (hsteady.enter .operand .operand)).bind fun hv h => ?_
    exact (bindPattern_weakens pattern h hv.level hv.built).bind fun _ h =>
      .pure h (.ofLevel (W.ofLevel _))
  | .conditional condition thenExpr elseExpr _, _, _, h, hsteady => by
    rw [eval]
    refine (eval_weakens condition h (hsteady.enter .condition .condition)).bind fun _ h => ?_
    refine ((eval_weakens thenExpr h (hsteady.enter .thenExpr .thenExpr)).fork
      (eval_weakens elseExpr h (hsteady.enter .elseExpr .elseExpr))).bind fun hv h => ?_
    exact .pure h (.ofLevel (W.meet hv.1.level hv.2.level))
  | .switch scrutinee arms _, _, _, h, hsteady => by
    rw [eval]
    refine (eval_weakens scrutinee h (hsteady.enter .scrutinee .scrutinee)).bind fun hv h => ?_
    have harms := runArms_weakens arms h hv fun _ harm => hsteady.enter (.arm harm) (.arm harm)
    exact (Walk.Simulates.alternatives W.meet h harms).bind fun ho h =>
      .pure h (.ofLevel (W.getD_level ho (W.ofLevel _)))
  | .assign target value _, _, _, h, hsteady => by
    rw [eval]
    refine (eval_weakens value h (hsteady.enter .assignValue .assignValue)).bind fun hv h => ?_
    exact (assignVariable_weakens h target hv.level _ hsteady.stores).bind fun _ h =>
      .pure h (.ofLevel hv.level)
  | .other _ children _, _, _, h, hsteady => by
    rw [eval]
    exact (evalArgs_weakens children h (hsteady.enter .children .children)).bind fun _ h =>
      .pure h (.ofLevel (W.ofLevel _))

theorem evalOption_weakens : ∀ (o : Option Expr) {env env' : Env}, W.Envs env env' →
    (∀ e, o = some e → W.Steady (.expr e) (.expr e) env env') →
    (evalOption ctx o).Simulates W.simulation (Option.Rel W.level) (evalOption ctx o) env env'
  | none, _, _, h, _ => by rw [evalOption]; exact .pure h .none
  | some e, _, _, h, hsteady => by
    rw [evalOption]
    exact (eval_weakens e h (hsteady e rfl)).bind fun hv h => .pure h (.some hv.level)

theorem evalArgs_weakens : ∀ (es : List Expr) {env env' : Env}, W.Envs env env' →
    ∀ {required : Nat → Option Level} {index : Nat},
    W.Steady (.args required index es) (.args required index es) env env' →
    (evalArgs ctx required index es).Simulates W.simulation (List.Forall₂ W.level)
      (evalArgs ctx required index es) env env'
  | [], _, _, h, required, index, _ => by rw [evalArgs]; exact .pure h .nil
  | e :: rest, _, _, h, required, index, hsteady => by
    rw [evalArgs]
    refine (eval_weakens e h (hsteady.enter .firstArg .firstArg)).bind fun hv h => ?_
    refine (checkAgainst_weakens h (required index) hv.level _ _).bind fun _ h => ?_
    refine (evalArgs_weakens rest h ?_).bind fun hargs h => .pure h (.cons hv.level hargs)
    rw [checkAgainst_apply, checkAgainst_apply]
    exact hsteady.enter .restArgs .restArgs

theorem runArms_weakens : ∀ (arms : List Arm) {env env' : Env}, W.Envs env env' →
    ∀ {v v' : Evaluated}, W.Value v v' →
    (∀ arm ∈ arms, W.Steady (.arm v arm) (.arm v' arm) env env') →
    List.Forall₂ (fun w w' => Walk.Simulates W.simulation (Option.Rel W.level) w w' env env')
      (runArms ctx v arms) (runArms ctx v' arms)
  | [], _, _, _, v, v', _, _ => by
    rw [runArms, runArms]
    exact .nil
  | .mk label body _ :: rest, _, _, h, v, v', hv, hsteady => by
    have hfirst := hsteady _ List.mem_cons_self
    rw [runArms, runArms]
    refine .cons (.inScope ?_)
      (runArms_weakens rest h hv fun arm harm => hsteady arm (List.mem_cons_of_mem _ harm))
    exact (bindLabel_weakens label h.push hv (hfirst.enter .label .label)).bind fun _ h =>
      runBody_weakens body h (hfirst.enter .body .body)

theorem bindLabel_weakens : ∀ (label : Label) {env env' : Env}, W.Envs env env' →
    ∀ {v v' : Evaluated}, W.Value v v' → W.Steady (.label v label) (.label v' label) env env' →
    (bindLabel ctx v label).Simulates W.simulation (fun _ _ => True) (bindLabel ctx v' label)
      env env'
  | .pattern pattern, _, _, h, v, v', hv, _ => by
    rw [bindLabel, bindLabel]
    exact bindPattern_weakens pattern h hv.level hv.built
  | .constant expr, _, _, h, v, v', _, hsteady => by
    rw [bindLabel, bindLabel]
    exact (eval_weakens expr h (hsteady.enter .labelConstant .labelConstant)).bind fun _ h =>
      .pure h trivial
  | .default, _, _, h, v, v', _, _ => by
    rw [bindLabel, bindLabel]
    exact .pure h trivial

theorem runBody_weakens : ∀ (body : ArmBody) {env env' : Env}, W.Envs env env' →
    W.Steady (.body body) (.body body) env env' →
    (runBody ctx body).Simulates W.simulation (Option.Rel W.level) (runBody ctx body) env env'
  | .expr expr, _, _, h, hsteady => by
    rw [runBody]
    exact (eval_weakens expr h (hsteady.enter .bodyExpr .bodyExpr)).bind fun hv h =>
      .pure h (.some hv.level)
  | .block block, _, _, h, hsteady => by
    rw [runBody]
    exact (execBlock_weakens block h (hsteady.enter .bodyBlock .bodyBlock)).bind fun _ h =>
      .pure h .none

/-- **Executing a steady statement keeps environments related.** -/
theorem exec_weakens : ∀ (s : Stmt) {env env' : Env}, W.Envs env env' →
    W.Steady (.stmt s) (.stmt s) env env' →
    (exec ctx s).Simulates W.simulation (fun _ _ => True) (exec ctx s) env env'
  | .declare decl none _, _, _, h, _ => by
    rw [exec]
    refine (resolveVariable_weakens h decl.id decl.annots).bind fun hr h => ?_
    rw [hr.1, hr.2]
    exact declareLocal_weakens h decl _
  | .declare decl (some init) _, _, _, h, hsteady => by
    rw [exec]
    refine (resolveVariable_weakens h decl.id decl.annots).bind fun hr h => ?_
    rw [hr.1, hr.2]
    refine (eval_weakens init h (hsteady.enter .init .init)).bind fun hv h => ?_
    exact initLocal_weakens h decl _ init hv.level hsteady.stores
  | .expr expr _, _, _, h, hsteady => by
    rw [exec]
    exact (eval_weakens expr h (hsteady.enter .stmtExpr .stmtExpr)).bind fun _ h => .pure h trivial
  | .ifElse condition thenBranch elseBranch _, _, _, h, hsteady => by
    rw [exec]
    have hcondition := hsteady.enter .ifCondition .ifCondition
    have hbranches := hsteady.enter .ifBranches .ifBranches
    refine .inScope ((eval_weakens condition h.push hcondition).bind fun _ h => ?_)
    refine ((execBlock_weakens thenBranch h (hbranches.enter .thenBranch .thenBranch)).fork
      (execOption_weakens elseBranch h ?_)).bind fun _ h => .pure h trivial
    rintro block rfl
    exact hbranches.enter .elseBranch .elseBranch
  | .loop condition body _, _, _, h, hsteady => by
    rw [exec]
    have hcondition := hsteady.enter .loopCondition .loopCondition
    have hbody := (hsteady.enter .loopBody .loopBody).enter .thenBranch .thenBranch
    refine .inScope ((eval_weakens condition h.push hcondition).bind fun _ h => ?_)
    have hskip : (pure () : Walk Unit).Simulates W.simulation (fun _ _ => True) (pure ()) _ _ :=
      .pure h trivial
    exact ((execBlock_weakens body h hbody).fork hskip).bind fun _ h => .pure h trivial
  | .switch scrutinee arms _, _, _, h, hsteady => by
    rw [exec]
    refine (eval_weakens scrutinee h (hsteady.enter .stmtScrutinee .stmtScrutinee)).bind
      fun hv h => ?_
    have harms := runArms_weakens arms h hv fun _ harm =>
      hsteady.enter (.stmtArm harm) (.stmtArm harm)
    exact (Walk.Simulates.alternatives W.meet h harms).bind fun _ h => .pure h trivial
  | .ret none _, _, _, h, _ => by
    rw [exec]
    exact .pure h trivial
  | .ret (some value) _, _, _, h, hsteady => by
    rw [exec]
    exact (eval_weakens value h (hsteady.enter .returned .returned)).bind fun hv h =>
      checkAgainst_weakens h ctx.returns hv.level _ _
  | .block block _, _, _, h, hsteady => by
    rw [exec]
    exact execBlock_weakens block h (hsteady.enter .stmtBlock .stmtBlock)

/-- Running statements from related environments, if what is stored is as asked. -/
theorem execAll_weakens : ∀ (stmts : List Stmt) {env env' : Env}, W.Envs env env' →
    W.Steady (.stmts stmts) (.stmts stmts) env env' →
    (execAll ctx stmts).Simulates W.simulation (fun _ _ => True) (execAll ctx stmts) env env'
  | [], _, _, h, _ => by
    rw [execAll]
    exact .pure h trivial
  | s :: rest, _, _, h, hsteady => by
    rw [execAll]
    exact (exec_weakens s h (hsteady.enter .firstStmt .firstStmt)).bind fun _ h =>
      execAll_weakens rest h (hsteady.enter .restStmts .restStmts)

theorem execBlock_weakens : ∀ (block : Block) {env env' : Env}, W.Envs env env' →
    W.Steady (.block block) (.block block) env env' →
    (execBlock ctx block).Simulates W.simulation (fun _ _ => True) (execBlock ctx block) env env'
  | .mk stmts _, _, _, h, hsteady => by
    rw [execBlock]
    exact (execAll_weakens stmts h.push (hsteady.enter .blockStmts .blockStmts)).inScope

theorem execOption_weakens : ∀ (o : Option Block) {env env' : Env}, W.Envs env env' →
    (∀ block, o = some block → W.Steady (.block block) (.block block) env env') →
    (execOption ctx o).Simulates W.simulation (fun _ _ => True) (execOption ctx o) env env'
  | none, _, _, h, _ => by
    rw [execOption]
    exact .pure h trivial
  | some block, _, _, h, hsteady => by
    rw [execOption]
    exact execBlock_weakens block h (hsteady block rfl)

end

end Bodies

/-- The weakening that relates all levels and excuses everything. -/
def all (ctx : Context) : Weakening ctx where
  level _ _ := True
  excused _ := True
  stored _ _ _ := True
  null := trivial
  unchecked := trivial
  ofLevel _ := trivial
  self _ := trivial
  meet _ _ := trivial
  inheritedFrom _ := trivial
  matched _ := trivial
  plainLevel _ _ _ := trivial
  judged _ := ⟨rfl, rfl, rfl, fun _ => Or.inr (Or.inr trivial)⟩

end Weakening

/-- Running statements complains just about what it judges. -/
theorem execAll_complains (ctx : Context) (stmts : List Stmt) (env : Env) :
    Event.Complains (execAll ctx stmts env).log := by
  have hrefl : (Weakening.all ctx).Envs env env := .refl (fun _ _ => ⟨trivial, rfl, rfl, rfl⟩) env
  have hsteady : (Weakening.all ctx).Steady (.stmts stmts) (.stmts stmts) env env :=
    fun q e e' _ _ => q.stores_true ctx e e'
  exact (Weakening.execAll_weakens stmts hrefl hsteady).log.complains

end Closedness
