import Closedness.Proofs.Env
import Closedness.Proofs.Steps
import Mathlib.Data.List.Forall2

/-!
# Two walks side by side

Two environments are related if their scopes hold the same variables in related states (`Env.Rel`).
Every operation on environments keeps that, as long as the relation on states does. A `Simulation`
relates states and logs; `Walk.Simulates` says that two walks, each from an environment of its own,
lead to related values, environments and logs. It is closed under all the ways in which walks are
put together: what comes later has to be simulated only where what comes before leads to.
-/

namespace Closedness

/-- A relation between what two environments know of the variable with a given id. -/
abbrev StateRel := DeclId → VarState → VarState → Prop

/-! ## Related environments -/

/-- The same variables, in related states. -/
def Frame.Rel (S : StateRel) (frame frame' : Frame) : Prop :=
  List.Forall₂ (fun e e' => e.1 = e'.1 ∧ S e.1 e.2 e'.2) frame.entries frame'.entries

namespace Frame.Rel

variable {S : StateRel} {frame frame' : Frame}

theorem get? (h : Frame.Rel S frame frame') (id : DeclId) :
    Option.Rel (S id) (frame.get? id) (frame'.get? id) := by
  obtain ⟨entries⟩ := frame
  obtain ⟨entries'⟩ := frame'
  simp only [Table.get?]
  simp only [Frame.Rel] at h
  induction h with
  | nil => exact .none
  | @cons e e' rest rest' he _ ih =>
    obtain ⟨key, s⟩ := e
    obtain ⟨key', s'⟩ := e'
    obtain ⟨rfl, hs⟩ := he
    simp only [Table.find?]
    split
    · next hkey => exact .some (hkey ▸ hs)
    · exact ih

theorem contains (h : Frame.Rel S frame frame') (id : DeclId) :
    frame.contains id = frame'.contains id := by
  have hget := h.get? id
  unfold Table.contains
  generalize frame.get? id = s, frame'.get? id = s' at hget
  cases hget <;> rfl

theorem insert (h : Frame.Rel S frame frame') {id : DeclId} {s s' : VarState} (hs : S id s s') :
    Frame.Rel S (frame.insert id s) (frame'.insert id s') := by
  obtain ⟨entries⟩ := frame
  obtain ⟨entries'⟩ := frame'
  simp only [Frame.Rel, Table.insert] at h ⊢
  induction h with
  | nil => exact .cons ⟨rfl, hs⟩ .nil
  | @cons e e' rest rest' he hrest ih =>
    obtain ⟨key, old⟩ := e
    obtain ⟨key', old'⟩ := e'
    obtain ⟨rfl, hold⟩ := he
    simp only [Table.put]
    split
    · next hkey => exact .cons ⟨rfl, hkey ▸ hs⟩ hrest
    · exact .cons ⟨rfl, hold⟩ ih

theorem map (h : Frame.Rel S frame frame') {f f' : DeclId → VarState → VarState}
    (hf : ∀ {id s s'}, S id s s' → S id (f id s) (f' id s')) :
    Frame.Rel S (Table.map f frame) (Table.map f' frame') := by
  simp only [Frame.Rel, Table.map, List.forall₂_map_left_iff, List.forall₂_map_right_iff]
  exact List.Forall₂.imp (fun e e' he => ⟨he.1, he.1 ▸ hf he.2⟩) h

end Frame.Rel

/-- The same scopes with the same variables, in related states. -/
def Env.Rel (S : StateRel) (env env' : Env) : Prop :=
  List.Forall₂ (Frame.Rel S) env.frames env'.frames

namespace Env.Rel

variable {S : StateRel} {env env' : Env}

/-- The same variables are found in related environments, in related states. -/
theorem get? (h : Env.Rel S env env') (id : DeclId) :
    Option.Rel (S id) (env.get? id) (env'.get? id) := by
  unfold Env.Rel at h
  unfold Env.get?
  generalize env.frames = frames, env'.frames = frames' at h
  induction h with
  | nil => exact .none
  | @cons frame frame' rest rest' hframe _ ih =>
    have hget := hframe.get? id
    simp only [lookup]
    generalize frame.get? id = s, frame'.get? id = s' at hget
    cases hget with
    | none => exact ih
    | some hs => exact .some hs

theorem get?_cases (h : Env.Rel S env env') (id : DeclId) :
    env.get? id = none ∧ env'.get? id = none ∨
      ∃ s s', env.get? id = some s ∧ env'.get? id = some s' ∧ S id s s' := by
  have hget := h.get? id
  generalize env.get? id = o, env'.get? id = o' at hget
  cases hget with
  | none => exact Or.inl ⟨rfl, rfl⟩
  | some hs => exact Or.inr ⟨_, _, rfl, rfl, hs⟩

theorem push (h : Env.Rel S env env') : Env.Rel S env.push env'.push :=
  .cons .nil h

theorem pop (h : Env.Rel S env env') : Env.Rel S env.pop env'.pop := by
  obtain ⟨inner, outer⟩ := env
  obtain ⟨inner', outer'⟩ := env'
  obtain ⟨hinner, houter⟩ := List.forall₂_cons.1 h
  cases houter with
  | nil => exact h
  | cons hframe hrest => exact .cons hframe hrest

theorem declare (h : Env.Rel S env env') {id : DeclId} {s s' : VarState} (hs : S id s s') :
    Env.Rel S (env.declare id s) (env'.declare id s') := by
  obtain ⟨hinner, houter⟩ := List.forall₂_cons.1 h
  exact .cons (hinner.insert hs) houter

/-- Assigning keeps environments related when it keeps the states of the target so. -/
theorem assign (h : Env.Rel S env env') {target : DeclId} {level level' : ValueLevel}
    (hset : ∀ {s s'}, S target s s' → S target { s with level } { s' with level := level' }) :
    Env.Rel S (env.assign target level) (env'.assign target level') := by
  have hsetIn : ∀ {frame frame' : Frame}, Frame.Rel S frame frame' →
      Frame.Rel S (setIn target level frame) (setIn target level' frame') := by
    intro frame frame' hframe
    refine hframe.map fun {id s s'} hs => ?_
    split
    · next hid =>
      subst hid
      exact hset hs
    · exact hs
  unfold Env.Rel at h ⊢
  rw [frames_assign, frames_assign]
  generalize env.frames = frames, env'.frames = frames' at h
  induction h with
  | nil => exact .nil
  | cons hframe hrest ih =>
    simp only [setLevel, hframe.contains target]
    split
    · exact .cons (hsetIn hframe) hrest
    · exact .cons hframe ih

/-- Where two paths join in both environments. -/
theorem merge (hjoin : ∀ {id s s' t t'}, S id s s' → S id t t' →
      S id { s with level := s.level.meet t.level } { s' with level := s'.level.meet t'.level })
    (h : Env.Rel S env env') {other other' : Env} (hother : Env.Rel S other other') :
    Env.Rel S (env.merge other) (env'.merge other') := by
  have hjoins : ∀ {id s s'}, S id s s' → S id (other.join id s) (other'.join id s') := by
    intro id s s' hs
    obtain ⟨ht, ht'⟩ | ⟨t, t', ht, ht', hrel⟩ := hother.get?_cases id
    · simpa [join, level?, ht, ht'] using hs
    · simpa [join, level?, ht, ht'] using hjoin hs hrel
  unfold Env.Rel
  rw [frames_merge, frames_merge, List.forall₂_map_left_iff, List.forall₂_map_right_iff]
  exact List.Forall₂.imp (fun _ _ hframe => hframe.map hjoins) h

theorem refl (h : ∀ id s, S id s s) (env : Env) : Env.Rel S env env := by
  refine List.forall₂_same.2 fun frame _ => List.forall₂_same.2 fun e _ => ?_
  exact ⟨rfl, h e.1 e.2⟩

/-- An environment that another path joins, if the join keeps each variable related. -/
theorem merge_right {other : Env}
    (h : ∀ frame ∈ env.frames, ∀ e ∈ frame.entries, S e.1 e.2 (other.join e.1 e.2)) :
    Env.Rel S env (env.merge other) := by
  unfold Env.Rel
  rw [frames_merge, List.forall₂_map_right_iff, List.forall₂_same]
  intro frame hframe
  rw [Frame.Rel, Table.map, List.forall₂_map_right_iff, List.forall₂_same]
  exact fun e he => ⟨rfl, h frame hframe e he⟩

/-! ### Static types -/

section Types

variable {ctx : Context} (htype : ∀ {id s s'}, S id s s' → s'.type = s.type)
include htype

/-- Where variables have the same types, so have expressions. -/
theorem staticType?_eq (h : Env.Rel S env env') :
    ∀ e : Expr, e.staticType? ctx env' = e.staticType? ctx env
  | .var decl _ => by
    simp only [Expr.staticType?]
    obtain ⟨hs, hs'⟩ | ⟨s, s', hs, hs', hstate⟩ := h.get?_cases decl
    · rw [hs, hs']
    · rw [hs, hs']
      exact htype hstate
  | .paren inner _ => staticType?_eq h inner
  | .conditional _ thenExpr _ _ => staticType?_eq h thenExpr
  | .assign _ value _ => staticType?_eq h value
  | .null _ | .literal _ _ | .self _ | .field _ _ _ | .call _ _ _ _ | .construct _ _ _
  | .singleton _ _ | .instanceOf _ _ _ | .switch _ _ _ | .other _ _ _ => rfl

theorem keepsMarker_eq (h : Env.Rel S env env') (declared : Option String) (init : Expr) :
    init.keepsMarker ctx env' declared = init.keepsMarker ctx env declared := by
  unfold Expr.keepsMarker
  rw [h.staticType?_eq htype]

end Types

end Env.Rel

/-! ## Related walks -/

/-- Related states of variables and related logs. -/
structure Simulation where
  state : StateRel
  log : List Event → List Event → Prop
  /-- Where paths join, related states stay related. -/
  join : ∀ {id s s' t t'}, state id s s' → state id t t' →
    state id { s with level := s.level.meet t.level } { s' with level := s'.level.meet t'.level }
  nil : log [] []
  append : ∀ {a a' b b'}, log a a' → log b b' → log (a ++ b) (a' ++ b')

namespace Walk

variable {α β γ δ : Type} {R : Simulation} {env env' : Env}

/-- From the two environments the walks lead to related values, environments and logs. -/
structure Simulates (R : Simulation) (V : α → β → Prop) (w : Walk α) (w' : Walk β)
    (env env' : Env) : Prop where
  value : V (w env).value (w' env').value
  after : Env.Rel R.state (w env).env (w' env').env
  log : R.log (w env).log (w' env').log

namespace Simulates

theorem pure {V : α → β → Prop} {a : α} {b : β} (henv : Env.Rel R.state env env') (h : V a b) :
    Simulates R V (Pure.pure a : Walk α) (Pure.pure b : Walk β) env env' :=
  ⟨h, henv, R.nil⟩

/-- Walks that simulate each other may go on with walks that do. -/
theorem bind {V : α → β → Prop} {W : γ → δ → Prop} {first : Walk α} {first' : Walk β}
    {next : α → Walk γ} {next' : β → Walk δ} (hfirst : Simulates R V first first' env env')
    (hnext : V (first env).value (first' env').value →
      Env.Rel R.state (first env).env (first' env').env →
      Simulates R W (next (first env).value) (next' (first' env').value) (first env).env
        (first' env').env) :
    Simulates R W (first >>= next) (first' >>= next') env env' := by
  obtain ⟨hvalue, henv, hlog⟩ := hnext hfirst.value hfirst.after
  exact ⟨hvalue, henv, R.append hfirst.log hlog⟩

theorem emit {events events' : List Event} (henv : Env.Rel R.state env env')
    (h : R.log events events') :
    Simulates R (fun _ _ => True) (Walk.emit events) (Walk.emit events') env env' :=
  ⟨trivial, henv, h⟩

theorem inScope {V : α → β → Prop} {body : Walk α} {body' : Walk β}
    (h : Simulates R V body body' env.push env'.push) :
    Simulates R V body.inScope body'.inScope env env' :=
  ⟨h.value, h.after.pop, h.log⟩

theorem fork {V : α → β → Prop} {W : γ → δ → Prop} {first : Walk α} {first' : Walk β}
    {second : Walk γ} {second' : Walk δ} (hfirst : Simulates R V first first' env env')
    (hsecond : Simulates R W second second' env env') :
    Simulates R (fun p p' => V p.1 p'.1 ∧ W p.2 p'.2) (first.fork second) (first'.fork second')
      env env' :=
  ⟨⟨hfirst.value, hsecond.value⟩, .merge R.join hsecond.after hfirst.after,
    R.append hfirst.log hsecond.log⟩

end Simulates

/-- Where a switch joins related outcomes, it leads to related environments. -/
theorem joinAll_rel {exhaustive : Bool} {before before' : Env}
    (hbefore : Env.Rel R.state before before') {outcomes outcomes' : List Env}
    (h : List.Forall₂ (Env.Rel R.state) outcomes outcomes') :
    Env.Rel R.state (joinAll exhaustive before outcomes)
      (joinAll exhaustive before' outcomes') := by
  have hfold : ∀ {first first' : Env} {rest rest' : List Env}, Env.Rel R.state first first' →
      List.Forall₂ (Env.Rel R.state) rest rest' →
      Env.Rel R.state (rest.foldl Env.merge first) (rest'.foldl Env.merge first') :=
    fun hfirst hrest => List.rel_foldl (fun _ _ henv _ _ hother => .merge R.join henv hother)
      hfirst hrest
  cases exhaustive with
  | false => exact hfold hbefore h
  | true =>
    cases h with
    | nil => exact hbefore
    | cons hfirst hrest => exact hfold hfirst hrest

/-- The meets of related levels are related. -/
theorem meetAll_rel {L : ValueLevel → ValueLevel → Prop}
    (hmeet : ∀ {a a' b b'}, L a a' → L b b' → L (a.meet b) (a'.meet b'))
    {levels levels' : List (Option ValueLevel)} (h : List.Forall₂ (Option.Rel L) levels levels') :
    Option.Rel L (meetAll levels) (meetAll levels') := by
  have hlevels : List.Forall₂ L (levels.filterMap id) (levels'.filterMap id) :=
    List.rel_filterMap (fun _ _ ho => ho) h
  unfold meetAll
  generalize levels.filterMap id = known, levels'.filterMap id = known' at hlevels
  cases hlevels with
  | nil => exact .none
  | cons hfirst hrest =>
    exact .some (List.rel_foldl (R := L) (P := L) (fun _ _ ha _ _ hb => hmeet ha hb) hfirst hrest)

/-- The arms of two switches simulate each other together if they do one by one. -/
theorem Simulates.alternatives {L : ValueLevel → ValueLevel → Prop}
    (hmeet : ∀ {a a' b b'}, L a a' → L b b' → L (a.meet b) (a'.meet b')) {exhaustive : Bool}
    (henv : Env.Rel R.state env env') {arms arms' : List (Walk (Option ValueLevel))}
    (h : List.Forall₂ (fun w w' => Simulates R (Option.Rel L) w w' env env') arms arms') :
    Simulates R (Option.Rel L) (Walk.alternatives exhaustive arms)
      (Walk.alternatives exhaustive arms') env env' := by
  have houtcomes : List.Forall₂ (fun o o' => Option.Rel L o.value o'.value ∧
        Env.Rel R.state o.env o'.env ∧ R.log o.log o'.log)
      (arms.map fun arm => arm env) (arms'.map fun arm => arm env') := by
    rw [List.forall₂_map_left_iff, List.forall₂_map_right_iff]
    exact h.imp fun arm arm' harm => ⟨harm.value, harm.after, harm.log⟩
  refine ⟨meetAll_rel hmeet ?_, joinAll_rel henv ?_, ?_⟩
  · rw [List.forall₂_map_left_iff, List.forall₂_map_right_iff]
    exact houtcomes.imp fun _ _ ho => ho.1
  · rw [List.forall₂_map_left_iff, List.forall₂_map_right_iff]
    exact houtcomes.imp fun _ _ ho => ho.2.1
  · show R.log (List.flatMap Outcome.log _) (List.flatMap Outcome.log _)
    generalize (arms.map fun arm => arm env) = outcomes, (arms'.map fun arm => arm env') = outcomes'
      at houtcomes
    induction houtcomes with
    | nil => exact R.nil
    | cons ho _ ih =>
      rw [List.flatMap_cons, List.flatMap_cons]
      exact R.append ho.2.2 ih

end Walk

end Closedness
