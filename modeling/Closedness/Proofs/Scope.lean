import Closedness.Check
import Closedness.Proofs.Env
import Closedness.Proofs.Steps
import Mathlib.Data.List.Perm.Subperm

/-!
# Scopes

`Env.Evolves declared assigned before after` says what a walk that declares the variables
`declared` and assigns to the variables `assigned` may do to an environment. The scopes keep their
variables, except that the innermost one may gain some of the declared ones. A variable that was
there keeps its type and its pin, and its level too, unless it is not pinned and is assigned to. A
new variable that is pinned has the level it is pinned at.

All walks do so from environments in which their declarations are new (`eval_evolves`,
`exec_evolves`), and a walk inside a scope of its own leaves the variables of every scope as they
are. That the declarations are new is needed where paths join: a variable of one path is joined
with the variable of the same id of the other, which must not be another variable.
-/

namespace Closedness

/-! ## Assigned variables -/

mutual

/-- The variables an expression assigns to. -/
def Expr.assigned : Expr → List DeclId
  | .null _ | .literal _ _ | .var _ _ | .self _ | .singleton _ _ => []
  | .field receiver _ _ => Expr.optionAssigned receiver
  | .call receiver _ args _ => Expr.optionAssigned receiver ++ Expr.listAssigned args
  | .construct _ args _ => Expr.listAssigned args
  | .paren inner _ => inner.assigned
  | .instanceOf operand _ _ => operand.assigned
  | .conditional condition thenExpr elseExpr _ =>
    condition.assigned ++ (thenExpr.assigned ++ elseExpr.assigned)
  | .switch scrutinee arms _ => scrutinee.assigned ++ Arm.listAssigned arms
  | .assign target value _ => value.assigned ++ [target]
  | .other _ children _ => Expr.listAssigned children

def Expr.listAssigned : List Expr → List DeclId
  | [] => []
  | e :: rest => e.assigned ++ Expr.listAssigned rest

def Expr.optionAssigned : Option Expr → List DeclId
  | none => []
  | some e => e.assigned

/-- The variables a statement assigns to. -/
def Stmt.assigned : Stmt → List DeclId
  | .declare _ init _ => Expr.optionAssigned init
  | .expr expr _ => expr.assigned
  | .ifElse condition thenBranch elseBranch _ =>
    condition.assigned ++ (thenBranch.assigned ++ Block.optionAssigned elseBranch)
  | .loop condition body _ => condition.assigned ++ body.assigned
  | .switch scrutinee arms _ => scrutinee.assigned ++ Arm.listAssigned arms
  | .ret value _ => Expr.optionAssigned value
  | .block block _ => block.assigned

def Stmt.listAssigned : List Stmt → List DeclId
  | [] => []
  | s :: rest => s.assigned ++ Stmt.listAssigned rest

def Block.assigned : Block → List DeclId
  | .mk stmts _ => Stmt.listAssigned stmts

def Block.optionAssigned : Option Block → List DeclId
  | none => []
  | some block => block.assigned

def Arm.listAssigned : List Arm → List DeclId
  | [] => []
  | .mk label body _ :: rest => label.assigned ++ body.assigned ++ Arm.listAssigned rest

def Label.assigned : Label → List DeclId
  | .pattern _ | .default => []
  | .constant expr => expr.assigned

def ArmBody.assigned : ArmBody → List DeclId
  | .expr expr => expr.assigned
  | .block block => block.assigned

end

/-- The ids of declarations. -/
def Declaration.ids (ds : List Declaration) : List DeclId :=
  ds.map Declaration.id

namespace Declaration

@[simp] theorem ids_nil : ids [] = [] := rfl

@[simp] theorem ids_cons (d : Declaration) (ds : List Declaration) :
    ids (d :: ds) = d.id :: ids ds := rfl

@[simp] theorem ids_append (a b : List Declaration) : ids (a ++ b) = ids a ++ ids b :=
  List.map_append

end Declaration

/-! ## What a walk may do to an environment -/

/-- A variable that is pinned has the level it is pinned at. -/
def VarState.HoldsPin (s : VarState) : Prop :=
  ∀ p, s.pinned = some p → s.level = .level p

namespace Env

/-- The ids are new to the environment, and no id occurs twice in it. -/
def Fresh (declared : List DeclId) (env : Env) : Prop :=
  (declared ++ env.ids).Nodup

/-- What a walk that declares and assigns to the given variables may do to an environment. -/
structure Evolves (declared assigned : List DeclId) (before after : Env) : Prop where
  outer : after.outer.map Table.keys = before.outer.map Table.keys
  inner : ∃ new, new.Subperm declared ∧ after.inner.keys = before.inner.keys ++ new
  kept : ∀ {id s}, before.get? id = some s → ∃ level, after.get? id = some { s with level } ∧
    (level = s.level ∨ s.pinned = none ∧ id ∈ assigned)
  added : ∀ {id s}, before.get? id = none → after.get? id = some s → s.HoldsPin

theorem ids_eq (env : Env) : env.ids = env.inner.keys ++ env.outer.flatMap Table.keys := rfl

theorem ids_of_keys {a b : Env} (h : a.frames.map Table.keys = b.frames.map Table.keys) :
    a.ids = b.ids :=
  congrArg List.flatten h

namespace Fresh

variable {declared more : List DeclId} {env : Env}

theorem not_mem (h : env.Fresh declared) {id : DeclId} (hid : id ∈ declared) : id ∉ env.ids :=
  fun hmem => (List.nodup_append.1 h).2.2 id hid id hmem rfl

theorem nodup_ids (h : env.Fresh declared) : env.ids.Nodup :=
  (List.nodup_append.1 h).2.1

/-- Whatever is new stays so when fewer variables are declared. -/
theorem subperm (h : env.Fresh declared) (hsub : more.Subperm declared) : env.Fresh more := by
  obtain ⟨l, hperm, hl⟩ := hsub
  exact ((hperm.append_right _).nodup_iff).1 (List.Nodup.sublist (hl.append_right _) h)

theorem nil (h : env.Fresh declared) : env.Fresh [] :=
  h.subperm List.nil_subperm

theorem left (h : env.Fresh (declared ++ more)) : env.Fresh declared :=
  h.subperm (List.sublist_append_left ..).subperm

theorem right (h : env.Fresh (declared ++ more)) : env.Fresh more :=
  h.subperm (List.sublist_append_right ..).subperm

theorem disjoint (h : env.Fresh (declared ++ more)) {id : DeclId} (hid : id ∈ declared) :
    id ∉ more :=
  fun hmem => (List.nodup_append.1 (List.nodup_append.1 h).1).2.2 id hid id hmem rfl

theorem push (h : env.Fresh declared) : env.push.Fresh declared := h

end Fresh

namespace Evolves

variable {declared declared' assigned assigned' : List DeclId} {before after env : Env}

theorem refl (env : Env) : Evolves [] [] env env where
  outer := rfl
  inner := ⟨[], .refl _, (List.append_nil _).symm⟩
  kept hs := ⟨_, hs, Or.inl rfl⟩
  added hnone hsome := by rw [hnone] at hsome; cases hsome

/-- A walk may be said to declare and assign to more than it does. -/
theorem mono (h : Evolves declared assigned before after) (hd : declared.Subperm declared')
    (ha : assigned ⊆ assigned') : Evolves declared' assigned' before after where
  outer := h.outer
  inner := by
    obtain ⟨new, hnew, hkeys⟩ := h.inner
    exact ⟨new, hnew.trans hd, hkeys⟩
  kept hs := by
    obtain ⟨level, hget, hlevel⟩ := h.kept hs
    exact ⟨level, hget, hlevel.imp_right (And.imp_right (ha ·))⟩
  added := h.added

/-- Only variables that are not pinned change their level. -/
theorem holdsPin_of_kept (h : Evolves declared assigned before after) {id : DeclId} {s t : VarState}
    (hs : before.get? id = some s) (hpin : s.HoldsPin) (ht : after.get? id = some t) :
    t.HoldsPin := by
  obtain ⟨level, hget, hlevel⟩ := h.kept hs
  rw [hget] at ht
  rw [← Option.some.inj ht]
  intro p hp
  rcases hlevel with rfl | ⟨hnone, -⟩
  · exact hpin p hp
  · rw [hnone] at hp
    cases hp

/-- If the pinned variables have the level they are pinned at, they still do after a walk. -/
theorem holdsPin (h : Evolves declared assigned before after)
    (hpins : ∀ {id s}, before.get? id = some s → s.HoldsPin) {id : DeclId} {s : VarState}
    (hs : after.get? id = some s) : s.HoldsPin := by
  cases hbefore : before.get? id with
  | none => exact h.added hbefore hs
  | some t => exact h.holdsPin_of_kept hbefore (hpins hbefore) hs

/-- What happens to an environment in two steps. -/
theorem trans {after' : Env} (h : Evolves declared assigned before after)
    (h' : Evolves declared' assigned' after after') :
    Evolves (declared ++ declared') (assigned ++ assigned') before after' where
  outer := h'.outer.trans h.outer
  inner := by
    obtain ⟨new, hnew, hkeys⟩ := h.inner
    obtain ⟨new', hnew', hkeys'⟩ := h'.inner
    exact ⟨new ++ new', hnew.append hnew', by rw [hkeys', hkeys, List.append_assoc]⟩
  kept hs := by
    obtain ⟨level, hget, hlevel⟩ := h.kept hs
    obtain ⟨level', hget', hlevel'⟩ := h'.kept hget
    refine ⟨level', hget', ?_⟩
    rcases hlevel with rfl | ⟨hpin, hmem⟩
    · exact hlevel'.imp_right (And.imp_right (List.mem_append_right _))
    · exact Or.inr ⟨hpin, List.mem_append_left _ hmem⟩
  added {id s} hnone hsome := by
    cases hmid : after.get? id with
    | none => exact h'.added hmid hsome
    | some t => exact h'.holdsPin_of_kept hmid (h.added hnone hmid) hsome

/-- Variables are declared only where the walk says so. -/
theorem mem_ids (h : Evolves declared assigned before after) {id : DeclId} (hid : id ∈ after.ids) :
    id ∈ before.ids ∨ id ∈ declared := by
  obtain ⟨new, hnew, hkeys⟩ := h.inner
  rw [ids_eq, hkeys, List.flatMap_def, h.outer, ← List.flatMap_def] at hid
  simp only [List.mem_append] at hid
  rcases hid with (hid | hid) | hid
  · exact Or.inl (List.mem_append_left _ hid)
  · exact Or.inr (hnew.subset hid)
  · exact Or.inl (List.mem_append_right _ hid)

theorem mem_ids_of_mem (h : Evolves declared assigned before after) {id : DeclId}
    (hid : id ∈ before.ids) : id ∈ after.ids := by
  obtain ⟨s, hs⟩ := exists_get?_of_mem_ids hid
  obtain ⟨level, hget, -⟩ := h.kept hs
  exact mem_ids_of_get? hget

/-- What is declared later is still new after a walk. -/
theorem fresh (h : Evolves declared assigned before after)
    (hf : before.Fresh (declared ++ declared')) : after.Fresh declared' := by
  obtain ⟨new, hnew, hkeys⟩ := h.inner
  have hids : after.ids = before.inner.keys ++ new ++ before.outer.flatMap Table.keys := by
    rw [ids_eq, hkeys, List.flatMap_def, h.outer, ← List.flatMap_def]
  have hnodup : (new ++ (declared' ++ before.ids)).Nodup := by
    rw [← List.append_assoc]
    exact hf.subperm (hnew.append (.refl _))
  refine (List.Perm.nodup_iff ?_).1 hnodup
  rw [hids, ids_eq]
  simp only [List.append_assoc]
  exact (List.perm_append_comm_assoc ..).trans ((List.perm_append_comm_assoc ..).append_left _)

/-- A walk that declares nothing keeps the variables of every scope. -/
theorem keys_frames (h : Evolves [] assigned before after) :
    after.frames.map Table.keys = before.frames.map Table.keys := by
  obtain ⟨new, hnew, hkeys⟩ := h.inner
  rw [List.subperm_nil.1 hnew, List.append_nil] at hkeys
  simp only [frames, List.map_cons, hkeys, h.outer]

/-! ### Single steps -/

/-- Declaring a new variable changes nothing about the others. -/
theorem declare {id : DeclId} (hf : env.Fresh [id]) {s : VarState} (hs : s.HoldsPin) :
    Evolves [id] [] env (env.declare id s) where
  outer := rfl
  inner := by
    have hnew : id ∉ env.inner.keys := fun hmem =>
      hf.not_mem List.mem_cons_self (List.mem_append_left _ hmem)
    exact ⟨[id], .refl _, Table.keys_insert_of_not_mem hnew s⟩
  kept {other t} ht := by
    have hne : other ≠ id := by
      rintro rfl
      exact hf.not_mem List.mem_cons_self (mem_ids_of_get? ht)
    exact ⟨t.level, by rw [get?_declare_of_ne env hne]; exact ht, Or.inl rfl⟩
  added {other t} hnone hsome := by
    by_cases hid : other = id
    · rw [hid, get?_declare_self] at hsome
      exact Option.some.inj hsome ▸ hs
    · rw [get?_declare_of_ne env hid, hnone] at hsome
      cases hsome

/-- Giving a value to a variable changes its level, if it is not pinned. -/
theorem assigned_step (ctx : Context) (target : DeclId) (level : ValueLevel) (env : Env) :
    Evolves [] [target] env (ctx.assigned target level env) := by
  have hstay : Evolves [] [target] env env := (refl env).mono (.refl _) (List.nil_subset _)
  unfold Context.assigned
  cases hget : env.get? target with
  | none => exact hstay
  | some state =>
    cases hpin : state.pinned with
    | some p => simpa only [hpin] using hstay
    | none =>
      simp only [hpin]
      have hkeys := map_keys_frames_assign env target (ctx.plainLevel level state.type)
      obtain ⟨hinner, houter⟩ := List.cons.inj hkeys
      refine ⟨houter, ⟨[], .refl _, by rw [List.append_nil]; exact hinner⟩, ?_, ?_⟩
      · intro id s hs
        rw [get?_assign, hs]
        by_cases hid : id = target
        · subst hid
          rw [hget] at hs
          cases hs
          exact ⟨_, by simp only [↓reduceIte, Option.map_some]; rfl,
            Or.inr ⟨hpin, List.mem_cons_self⟩⟩
        · exact ⟨s.level, by simp only [hid, ↓reduceIte, Option.map_some], Or.inl rfl⟩
      · intro id s hnone hsome
        rw [get?_assign, hnone] at hsome
        cases hsome

/-- What was there when a scope was entered is found as well after leaving it. -/
theorem get?_pop (hf : env.Fresh declared) (h : Evolves declared assigned env.push after)
    {id : DeclId} (hid : id ∈ env.ids) : after.pop.get? id = after.get? id := by
  obtain ⟨new, hnew, hkeys⟩ := h.inner
  refine Env.get?_pop fun hmem => ?_
  rw [show after.inner.keys = new from hkeys] at hmem
  exact hf.not_mem (hnew.subset hmem) hid

/-- Leaving a scope forgets what was declared in it, and nothing else. -/
theorem scope (hf : env.Fresh declared) (h : Evolves declared assigned env.push after) :
    Evolves [] assigned env after.pop := by
  have hpop : ∀ {id}, id ∈ env.ids → after.pop.get? id = after.get? id := h.get?_pop hf
  obtain ⟨inner, outer⟩ := after
  obtain ⟨frame, rest, hframes, hframe, hrest⟩ := List.map_eq_cons_iff.1 h.outer
  cases hframes
  have hkeys : (Env.mk frame rest).frames.map Table.keys = env.frames.map Table.keys :=
    h.outer
  refine ⟨hrest, ⟨[], .refl _, by rw [List.append_nil]; exact hframe⟩, ?_, ?_⟩
  · intro id s hs
    obtain ⟨level, hget, hlevel⟩ := h.kept ((get?_push env id).trans hs)
    exact ⟨level, (hpop (mem_ids_of_get? hs)).trans hget, hlevel⟩
  · intro id s hnone hsome
    have hid : id ∈ env.ids := by
      rw [← ids_of_keys hkeys]
      exact mem_ids_of_get? (show (Env.mk frame rest).get? id = some s from hsome)
    exact absurd hid (get?_eq_none_iff.1 hnone)

/-- Two paths from one environment join to one that has evolved as both of them. -/
theorem merge {a b : Env} (hf : env.Fresh (declared ++ declared'))
    (ha : Evolves declared assigned env a) (hb : Evolves declared' assigned' env b) :
    Evolves declared' (assigned ++ assigned') env (b.merge a) := by
  have hkeys : (b.merge a).frames.map Table.keys = b.frames.map Table.keys :=
    map_keys_frames_merge b a
  obtain ⟨hinner, houter⟩ := List.cons.inj hkeys
  refine ⟨houter.trans hb.outer, ?_, ?_, ?_⟩
  · obtain ⟨new, hnew, hkeys⟩ := hb.inner
    exact ⟨new, hnew, hinner.trans hkeys⟩
  · intro id s hs
    obtain ⟨la, hgeta, hla⟩ := ha.kept hs
    obtain ⟨lb, hgetb, hlb⟩ := hb.kept hs
    refine ⟨lb.meet la, by rw [get?_merge, hgetb]; simp [join, level?, hgeta], ?_⟩
    rcases hla with rfl | ⟨hpin, hmem⟩
    · rcases hlb with rfl | ⟨hpin, hmem⟩
      · exact Or.inl (ValueLevel.meet_self _)
      · exact Or.inr ⟨hpin, List.mem_append_right _ hmem⟩
    · exact Or.inr ⟨hpin, List.mem_append_left _ hmem⟩
  · intro id s hnone hsome
    rw [get?_merge] at hsome
    obtain ⟨t, hgetb, hjoin⟩ := Option.map_eq_some_iff.1 hsome
    have hid : id ∉ env.ids := get?_eq_none_iff.1 hnone
    -- the variable was declared on the second path, so the first does not know it
    have hdeclared : id ∈ declared' := (hb.mem_ids (mem_ids_of_get? hgetb)).resolve_left hid
    have hgeta : a.get? id = none := by
      rw [get?_eq_none_iff]
      intro hmem
      rcases ha.mem_ids hmem with hmem | hmem
      · exact hid hmem
      · exact hf.disjoint hmem hdeclared
    have hst : s = t := by simpa [join, level?, hgeta] using hjoin.symm
    exact hst ▸ hb.added hnone hgetb

/-- Joining any number of paths changes no more than each of them. -/
theorem foldl_merge {first : Env} (hf : env.Fresh []) (hfirst : Evolves [] assigned env first)
    {outcomes : List Env} (h : ∀ o ∈ outcomes, Evolves [] assigned env o) :
    Evolves [] assigned env (outcomes.foldl Env.merge first) := by
  induction outcomes generalizing first with
  | nil => exact hfirst
  | cons o rest ih =>
    have hstep : Evolves [] assigned env (first.merge o) :=
      (merge (show env.Fresh ([] ++ []) from hf) (h o List.mem_cons_self) hfirst).mono (.refl _)
        (by simp)
    exact ih hstep fun o' ho' => h o' (List.mem_cons_of_mem _ ho')

/-- The arms of a switch join to an environment that has evolved as all of them. -/
theorem joinAll {exhaustive : Bool} (hf : env.Fresh []) {outcomes : List Env}
    (h : ∀ o ∈ outcomes, Evolves [] assigned env o) :
    Evolves [] assigned env (Walk.joinAll exhaustive env outcomes) := by
  unfold Walk.joinAll
  split
  · next first rest =>
    exact foldl_merge hf (h first List.mem_cons_self) fun o ho => h o (List.mem_cons_of_mem _ ho)
  · exact foldl_merge hf ((refl env).mono (.refl _) (List.nil_subset _)) h

end Evolves

end Env

/-! ## Walks -/

namespace Walk

variable {α β : Type} {declared declared' assigned assigned' : List DeclId}

/-- The walk declares and assigns to the given variables, from wherever the former are new. -/
def Evolves (declared assigned : List DeclId) (w : Walk α) : Prop :=
  ∀ env : Env, env.Fresh declared → env.Evolves declared assigned (w env).env

/-- The walk leaves the environment as it is. -/
def Still (w : Walk α) : Prop :=
  ∀ env, (w env).env = env

theorem Still.pure (a : α) : Still (Pure.pure a) := fun _ => rfl

theorem Still.emit (events : List Event) : Still (Walk.emit events) := fun _ => rfl

namespace Evolves

theorem of_still {w : Walk α} (h : Still w) : Evolves declared assigned w := by
  intro env _
  rw [h env]
  exact (Env.Evolves.refl env).mono List.nil_subperm (List.nil_subset _)

theorem mono {w : Walk α} (h : Evolves declared assigned w) (hd : declared.Subperm declared')
    (ha : assigned ⊆ assigned') : Evolves declared' assigned' w :=
  fun env hf => (h env (hf.subperm hd)).mono hd ha

/-- One walk after the other declares and assigns what each of them does. -/
theorem bind {first : Walk α} {next : α → Walk β} (hfirst : Evolves declared assigned first)
    (hnext : ∀ a, Evolves declared' assigned' (next a)) :
    Evolves (declared ++ declared') (assigned ++ assigned') (first >>= next) := by
  intro env hf
  have hstep := hfirst env hf.left
  exact hstep.trans (hnext _ _ (hstep.fresh hf))

theorem bind_still {first : Walk α} {next : α → Walk β} (hfirst : Evolves declared assigned first)
    (hnext : ∀ a, Still (next a)) : Evolves declared assigned (first >>= next) := by
  intro env hf
  rw [bind_apply, hnext _ _]
  exact hfirst env hf

theorem still_bind {first : Walk α} {next : α → Walk β} (hfirst : Still first)
    (hnext : ∀ a, Evolves declared assigned (next a)) :
    Evolves declared assigned (first >>= next) := by
  intro env hf
  rw [bind_apply, hfirst env]
  exact hnext _ env hf

/-- A walk in a scope of its own keeps the variables of every scope. -/
theorem inScope_apply {body : Walk α} (h : Evolves declared assigned body) {env : Env}
    (hf : env.Fresh declared) : env.Evolves [] assigned (body.inScope env).env :=
  .scope hf (h env.push hf.push)

/-- A scope of its own is left with no trace but of the assignments. -/
theorem inScope {body : Walk α} (h : Evolves declared assigned body) :
    Evolves declared assigned body.inScope :=
  fun _ hf => (h.inScope_apply hf).mono List.nil_subperm (List.Subset.refl _)

theorem fork {first : Walk α} {second : Walk β} (hfirst : Evolves declared assigned first)
    (hsecond : Evolves declared' assigned' second) :
    Evolves (declared ++ declared') (assigned ++ assigned') (first.fork second) := by
  intro env hf
  have hjoin := Env.Evolves.merge hf (hfirst env hf.left) (hsecond env hf.right)
  exact hjoin.mono (List.sublist_append_right ..).subperm (List.Subset.refl _)

/-- Any number of paths, each of which closes its scope. -/
theorem alternatives {exhaustive : Bool} {arms : List (Walk (Option ValueLevel))}
    (h : ∀ {env : Env}, env.Fresh declared →
      ∀ arm ∈ arms, env.Evolves [] assigned (arm env).env) :
    Evolves declared assigned (Walk.alternatives exhaustive arms) := by
  intro env hf
  refine (Env.Evolves.joinAll hf.nil fun o ho => ?_).mono List.nil_subperm (List.Subset.refl _)
  simp only [List.map_map, List.mem_map, Function.comp_apply] at ho
  obtain ⟨arm, harm, rfl⟩ := ho
  exact h hf arm harm

end Evolves

end Walk

/-! ## Bodies -/

section Bodies

variable (ctx : Context)

theorem VarState.holdsPin_plain (level : ValueLevel) (type : Option String) :
    (VarState.plain level type).HoldsPin :=
  fun _ h => nomatch h

theorem VarState.holdsPin_pin (level : Level) (span : Option Span) (type : Option String) :
    (VarState.pin level span type).HoldsPin :=
  fun _ h => congrArg ValueLevel.level (Option.some.inj h)

theorem VarState.holdsPin_ofBinding (b : Binding) (span : Option Span) (type : Option String) :
    (VarState.ofBinding b span type).HoldsPin := by
  match b with
  | .noInherit => exact holdsPin_plain _ _
  | .level .inherit => exact holdsPin_plain _ _
  | .level .bound => exact holdsPin_pin _ _ _
  | .level .closed => exact holdsPin_pin _ _ _

/-- A local variable that is pinned starts at the level it is pinned at. -/
theorem Context.holdsPin_initialState (decl : LocalDecl) (resolution : Resolution) (init : Expr)
    (value : ValueLevel) (env : Env) :
    (ctx.initialState decl resolution init value env).HoldsPin := by
  unfold Context.initialState
  split
  · exact VarState.holdsPin_plain _ _
  · exact VarState.holdsPin_plain _ _
  · exact VarState.holdsPin_plain _ _
  · split
    · exact VarState.holdsPin_pin _ _ _
    · exact VarState.holdsPin_plain _ _

theorem bindVariable_evolves (var : PatternVar) (incoming : ValueLevel) (type : Option String) :
    Walk.Evolves [var.id] [] (bindVariable ctx var incoming type) := by
  intro env hf
  rw [bindVariable_apply]
  exact .declare hf (VarState.holdsPin_plain _ _)

theorem declareLocal_evolves (decl : LocalDecl) (resolution : Resolution) :
    Walk.Evolves [decl.id] [] (declareLocal ctx decl resolution) := by
  intro env hf
  rw [declareLocal_apply]
  exact .declare hf (VarState.holdsPin_ofBinding _ _ _)

/-- A declaration with a value declares its variable. -/
theorem initLocal_evolves (decl : LocalDecl) (resolution : Resolution) (init : Expr)
    (value : ValueLevel) :
    Walk.Evolves [decl.id] [] (initLocal ctx decl resolution init value) := by
  intro env hf
  rw [initLocal_apply]
  exact .declare hf (ctx.holdsPin_initialState _ _ _ _ _)

theorem assignVariable_evolves (target : DeclId) (level : ValueLevel) (span : Span) :
    Walk.Evolves [] [target] (assignVariable ctx target level span) := by
  intro env _
  rw [assignVariable_apply]
  exact .assigned_step ctx target level env

theorem readVariable_still (id : DeclId) : Walk.Still (readVariable id) := fun _ => rfl

theorem resolveVariable_still (id : DeclId) (annots : List Annot) :
    Walk.Still (resolveVariable ctx id annots) :=
  fun env => by rw [resolveVariable_apply]

theorem checkAgainst_still (ctx : Context) (required : Option Level) (value : ValueLevel)
    (site : Site) (span : Span) : Walk.Still (checkAgainst ctx required value site span) :=
  fun env => by rw [checkAgainst_apply]

mutual

/-- A pattern declares its variables and assigns to none. -/
theorem bindPattern_evolves : ∀ (p : Pattern) (incoming : ValueLevel)
    (built : Option Construction),
    Walk.Evolves (Declaration.ids p.declarations) [] (bindPattern ctx incoming built p)
  | .typeTest variant none span, incoming, built => by
    rw [bindPattern]
    exact .still_bind (.emit _) fun _ => .of_still (.pure _)
  | .typeTest variant (some var) span, incoming, built => by
    rw [bindPattern]
    exact .still_bind (.emit _) fun _ => bindVariable_evolves ctx var _ _
  | .variable var span, incoming, built => by
    rw [bindPattern]
    exact bindVariable_evolves ctx var _ _
  | .record variant components span, incoming, built => by
    rw [bindPattern]
    exact .still_bind (.emit _) fun _ => bindComponents_evolves components _ _
  | .wildcard span, incoming, built => by
    rw [bindPattern]
    exact .of_still (.pure _)

theorem bindComponents_evolves : ∀ (ps : List Pattern) (level : Nat → ValueLevel) (index : Nat),
    Walk.Evolves (Declaration.ids (Pattern.listDeclarations ps)) []
      (bindComponents ctx level index ps)
  | [], level, index => by
    rw [bindComponents]
    exact .of_still (.pure _)
  | p :: rest, level, index => by
    rw [bindComponents, Pattern.listDeclarations, Declaration.ids_append]
    exact (bindPattern_evolves p _ _).bind fun _ => bindComponents_evolves rest _ _

end

mutual

/-- Evaluating an expression declares and assigns to no variables but its own. -/
theorem eval_evolves : ∀ (e : Expr),
    Walk.Evolves (Declaration.ids e.declarations) e.assigned (eval ctx e)
  | .null _ | .literal _ _ | .self _ | .singleton _ _ => by
    rw [eval]
    exact .of_still (.pure _)
  | .var decl _ => by
    rw [eval]
    exact .still_bind (readVariable_still decl) fun _ => .of_still (.pure _)
  | .field receiver component _ => by
    rw [eval]
    exact (evalOption_evolves receiver).bind_still fun _ => .pure _
  | .call receiver method args _ => by
    rw [eval, Expr.declarations, Declaration.ids_append]
    exact (evalOption_evolves receiver).bind fun _ =>
      (evalArgs_evolves args _ _).bind_still fun _ => .pure _
  | .construct variant args _ => by
    rw [eval]
    exact (evalArgs_evolves args _ _).bind_still fun _ => .pure _
  | .paren inner _ => by
    rw [eval]
    exact eval_evolves inner
  | .instanceOf operand pattern _ => by
    rw [eval, Expr.declarations, Declaration.ids_append, Expr.assigned, ← List.append_nil
      operand.assigned]
    exact (eval_evolves operand).bind fun _ =>
      (bindPattern_evolves ctx pattern _ _).bind_still fun _ => .pure _
  | .conditional condition thenExpr elseExpr _ => by
    rw [eval, Expr.declarations, List.append_assoc, Declaration.ids_append,
      Declaration.ids_append]
    exact (eval_evolves condition).bind fun _ =>
      ((eval_evolves thenExpr).fork (eval_evolves elseExpr)).bind_still fun _ => .pure _
  | .switch scrutinee arms _ => by
    rw [eval, Expr.declarations, Declaration.ids_append]
    exact (eval_evolves scrutinee).bind fun v =>
      (Walk.Evolves.alternatives (runArms_evolves arms v)).bind_still fun _ => .pure _
  | .assign target value _ => by
    rw [eval, Expr.assigned, ← List.append_nil (Declaration.ids _)]
    exact (eval_evolves value).bind fun v =>
      (assignVariable_evolves ctx target _ _).bind_still fun _ => .pure _
  | .other _ children _ => by
    rw [eval]
    exact (evalArgs_evolves children _ _).bind_still fun _ => .pure _

theorem evalOption_evolves : ∀ (e : Option Expr),
    Walk.Evolves (Declaration.ids (Expr.optionDeclarations e)) (Expr.optionAssigned e)
      (evalOption ctx e)
  | none => by
    rw [evalOption]
    exact .of_still (.pure _)
  | some e => by
    rw [evalOption]
    exact (eval_evolves e).bind_still fun _ => .pure _

theorem evalArgs_evolves : ∀ (es : List Expr) (required : Nat → Option Level) (index : Nat),
    Walk.Evolves (Declaration.ids (Expr.listDeclarations es)) (Expr.listAssigned es)
      (evalArgs ctx required index es)
  | [], required, index => by
    rw [evalArgs]
    exact .of_still (.pure _)
  | e :: rest, required, index => by
    rw [evalArgs, Expr.listDeclarations, Declaration.ids_append]
    exact (eval_evolves e).bind fun _ => .still_bind (checkAgainst_still _ _ _ _ _) fun _ =>
      (evalArgs_evolves rest _ _).bind_still fun _ => .pure _

/-- Each arm of a switch keeps the variables of every scope. -/
theorem runArms_evolves : ∀ (arms : List Arm) (scrutinee : Evaluated) {env : Env},
    env.Fresh (Declaration.ids (Arm.listDeclarations arms)) →
    ∀ arm ∈ runArms ctx scrutinee arms, env.Evolves [] (Arm.listAssigned arms) (arm env).env
  | [], scrutinee, env, _, arm, harm => by
    rw [runArms] at harm
    cases harm
  | .mk label body _ :: rest, scrutinee, env, hf, arm, harm => by
    rw [Arm.listDeclarations, Declaration.ids_append, Declaration.ids_append] at hf
    rw [runArms] at harm
    rcases List.mem_cons.1 harm with rfl | harm
    · have hbody := (bindLabel_evolves label scrutinee).bind fun _ => runBody_evolves body
      exact (hbody.inScope_apply hf.left).mono (.refl _) (List.subset_append_left ..)
    · exact (runArms_evolves rest scrutinee hf.right arm harm).mono (.refl _)
        (List.subset_append_right ..)

theorem bindLabel_evolves : ∀ (label : Label) (scrutinee : Evaluated),
    Walk.Evolves (Declaration.ids label.declarations) label.assigned
      (bindLabel ctx scrutinee label)
  | .pattern pattern, scrutinee => by
    rw [bindLabel]
    exact bindPattern_evolves ctx pattern _ _
  | .constant expr, scrutinee => by
    rw [bindLabel]
    exact (eval_evolves expr).bind_still fun _ => .pure _
  | .default, scrutinee => by
    rw [bindLabel]
    exact .of_still (.pure _)

theorem runBody_evolves : ∀ (body : ArmBody),
    Walk.Evolves (Declaration.ids body.declarations) body.assigned (runBody ctx body)
  | .expr expr => by
    rw [runBody]
    exact (eval_evolves expr).bind_still fun _ => .pure _
  | .block block => by
    rw [runBody]
    exact (execBlock_evolves block).bind_still fun _ => .pure _

/-- Running a statement declares and assigns to no variables but its own. -/
theorem exec_evolves : ∀ (s : Stmt),
    Walk.Evolves (Declaration.ids s.declarations) s.assigned (exec ctx s)
  | .declare decl none _ => by
    rw [exec]
    exact .still_bind (resolveVariable_still ctx _ _) fun _ => declareLocal_evolves ctx decl _
  | .declare decl (some init) _ => by
    rw [exec]
    have hinit : ∀ r, Walk.Evolves (Declaration.ids init.declarations ++ [decl.id])
        (init.assigned ++ [])
        (eval ctx init >>= fun v => initLocal ctx decl r init v.level) := fun r =>
      (eval_evolves init).bind fun v => initLocal_evolves ctx decl r init v.level
    refine .still_bind (resolveVariable_still ctx _ _) fun r => (hinit r).mono ?_ ?_
    · exact List.perm_append_comm.subperm
    · rw [List.append_nil]
      exact List.Subset.refl _
  | .expr expr _ => by
    rw [exec]
    exact (eval_evolves expr).bind_still fun _ => .pure _
  | .ifElse condition thenBranch elseBranch _ => by
    rw [exec, Stmt.declarations, List.append_assoc, Declaration.ids_append,
      Declaration.ids_append]
    exact .inScope ((eval_evolves condition).bind fun _ =>
      ((execBlock_evolves thenBranch).fork (execOption_evolves elseBranch)).bind_still
        fun _ => .pure _)
  | .loop condition body _ => by
    rw [exec, Stmt.declarations, Declaration.ids_append]
    have hskip : Walk.Evolves [] [] (pure () : Walk Unit) := .of_still (.pure _)
    have hfork := (execBlock_evolves body).fork hskip
    rw [List.append_nil, List.append_nil] at hfork
    exact .inScope ((eval_evolves condition).bind fun _ => hfork.bind_still fun _ => .pure _)
  | .switch scrutinee arms _ => by
    rw [exec, Stmt.declarations, Declaration.ids_append]
    exact (eval_evolves scrutinee).bind fun v =>
      (Walk.Evolves.alternatives (runArms_evolves arms v)).bind_still fun _ => .pure _
  | .ret none _ => by
    rw [exec]
    exact .of_still (.pure _)
  | .ret (some value) _ => by
    rw [exec]
    exact (eval_evolves value).bind_still fun _ => checkAgainst_still _ _ _ _ _
  | .block block _ => by
    rw [exec]
    exact execBlock_evolves block

theorem execAll_evolves : ∀ (stmts : List Stmt),
    Walk.Evolves (Declaration.ids (Stmt.listDeclarations stmts)) (Stmt.listAssigned stmts)
      (execAll ctx stmts)
  | [] => by
    rw [execAll]
    exact .of_still (.pure _)
  | s :: rest => by
    rw [execAll, Stmt.listDeclarations, Declaration.ids_append]
    exact (exec_evolves s).bind fun _ => execAll_evolves rest

theorem execBlock_evolves : ∀ (block : Block),
    Walk.Evolves (Declaration.ids block.declarations) block.assigned (execBlock ctx block)
  | .mk stmts _ => by
    rw [execBlock]
    exact (execAll_evolves stmts).inScope

theorem execOption_evolves : ∀ (block : Option Block),
    Walk.Evolves (Declaration.ids (Block.optionDeclarations block)) (Block.optionAssigned block)
      (execOption ctx block)
  | none => by
    rw [execOption]
    exact .of_still (.pure _)
  | some block => by
    rw [execOption]
    exact execBlock_evolves block

end

end Bodies

end Closedness
