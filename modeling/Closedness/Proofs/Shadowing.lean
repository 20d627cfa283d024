import Closedness.Proofs.Variables
import Mathlib.Data.List.Nodup

/-!
# Joining an environment with a copy of itself

A copy of an environment knows what the environment knows, so joining it should change nothing.
Whatever can be looked up is indeed as it was (`get?_merge_self`). But `Env.merge` goes through the
variables of every scope and looks each of them up in the copy from the innermost scope on, so that
a variable hidden by one of a scope further in meets that other variable: it comes out with the
weaker of the two levels, which shows as soon as the inner scope is left
(`merge_self_weakens_hidden`).

Where no id occurs twice nothing is hidden. That is so wherever the walk through a valid unit gets
to, and there joining a copy changes nothing (`Reached.merge_self`).
-/

namespace Closedness

/-- What becomes of a variable that meets the one that hides it, if there is one. -/
def VarState.meeting (s : VarState) : Option VarState → VarState
  | some t => { s with level := s.level.meet t.level }
  | none => s

namespace Env

/-! ## Environments that can be built -/

/-- The operations lead to this environment from that of a method without variables. Any two
environments may be joined, copies taken earlier among them, whether or not they were worked on. -/
inductive Built : Env → Prop where
  | empty : Built {}
  | push {env : Env} (h : Built env) : Built env.push
  | pop {env : Env} (h : Built env) : Built env.pop
  | declare {env : Env} (h : Built env) (id : DeclId) (s : VarState) : Built (env.declare id s)
  | assign {env : Env} (h : Built env) (id : DeclId) (level : ValueLevel) :
      Built (env.assign id level)
  | merge {env other : Env} (h : Built env) (hother : Built other) : Built (env.merge other)

/-- No scope holds an id twice, though several scopes may hold it. -/
def ScopesDistinct (env : Env) : Prop :=
  ∀ keys ∈ env.frames.map Table.keys, keys.Nodup

/-- Declaring a variable keeps the scopes distinct: what its scope has already is replaced. -/
theorem ScopesDistinct.declare {env : Env} (h : env.ScopesDistinct) (id : DeclId) (s : VarState) :
    (env.declare id s).ScopesDistinct := by
  have hinner : env.inner.keys.Nodup := h _ List.mem_cons_self
  intro keys hkeys
  rcases List.mem_cons.1 hkeys with rfl | hkeys
  · by_cases hid : id ∈ env.inner.keys
    · rwa [Env.declare, Table.keys_insert_of_mem hid]
    · rw [Env.declare, Table.keys_insert_of_not_mem hid, ← List.concat_eq_append]
      exact hinner.concat hid
  · exact h keys (List.mem_cons_of_mem _ hkeys)

/-- In an environment that can be built no scope holds an id twice. -/
theorem Built.scopesDistinct {env : Env} (h : Built env) : env.ScopesDistinct := by
  induction h with
  | empty =>
    intro keys hkeys
    rw [List.mem_singleton.1 hkeys]
    exact List.nodup_nil
  | push _ ih =>
    intro keys hkeys
    rcases List.mem_cons.1 hkeys with rfl | hkeys
    · exact List.nodup_nil
    · exact ih keys hkeys
  | @pop env _ ih =>
    obtain ⟨inner, outer⟩ := env
    cases outer with
    | nil => exact ih
    | cons frame rest => exact fun keys hkeys => ih keys (List.mem_cons_of_mem _ hkeys)
  | declare _ id s ih => exact ih.declare id s
  | @assign env _ id level ih =>
    unfold ScopesDistinct
    rwa [map_keys_frames_assign]
  | @merge env other _ _ ih _ =>
    unfold ScopesDistinct
    rwa [map_keys_frames_merge]

/-! ## Scope by scope -/

/-- The variable `id` of the scope that has `depth` scopes inside it. -/
def getAt? (env : Env) (depth : Nat) (id : DeclId) : Option VarState :=
  env.frames[depth]?.bind fun frame => frame.get? id

/-- The variable that hides the variable `id` of that scope: what is found in the scopes inside
it. -/
def hiding? (env : Env) (depth : Nat) (id : DeclId) : Option VarState :=
  lookup id (env.frames.take depth)

/-- An environment is determined by the ids of its scopes and by what each scope holds. -/
theorem eq_of_getAt? {a b : Env} (hkeys : a.frames.map Table.keys = b.frames.map Table.keys)
    (hdistinct : a.ScopesDistinct) (h : ∀ depth id, a.getAt? depth id = b.getAt? depth id) :
    a = b := by
  refine eq_of_frames (List.ext_getElem? fun depth => ?_)
  have hdepth : a.frames[depth]?.map Table.keys = b.frames[depth]?.map Table.keys := by
    rw [← List.getElem?_map, ← List.getElem?_map, hkeys]
  have hget := h depth
  unfold getAt? at hget
  cases hframe : a.frames[depth]? with
  | none =>
    rw [hframe] at hdepth
    exact (Option.map_eq_none_iff.1 hdepth.symm).symm
  | some frame =>
    rw [hframe] at hdepth hget
    obtain ⟨frame', hframe', hsame⟩ := Option.map_eq_some_iff.1 hdepth.symm
    rw [hframe'] at hget ⊢
    have hmem : frame.keys ∈ a.frames.map Table.keys :=
      List.mem_map_of_mem (List.mem_of_getElem? hframe)
    exact congrArg some (Table.eq_of_get? hsame.symm (hdistinct _ hmem) fun id _ => hget id)

theorem lookup_append (id : DeclId) (inner outer : List Frame) :
    lookup id (inner ++ outer) = (lookup id inner).or (lookup id outer) := by
  induction inner with
  | nil => rfl
  | cons frame rest ih =>
    simp only [List.cons_append, lookup, ih]
    cases frame.get? id <;> rfl

/-- Under the id of a variable one finds the variable that hides it, or else itself. -/
theorem get?_of_getAt? {env : Env} {depth : Nat} {id : DeclId} {s : VarState}
    (h : env.getAt? depth id = some s) : env.get? id = some ((env.hiding? depth id).getD s) := by
  obtain ⟨frame, hframe, hs⟩ := Option.bind_eq_some_iff.1 h
  have hsplit : env.frames = env.frames.take depth ++ frame :: env.frames.drop (depth + 1) := by
    obtain ⟨hlt, rfl⟩ := List.getElem?_eq_some_iff.1 hframe
    rw [List.getElem_cons_drop, List.take_append_drop]
  have hrest : lookup id (frame :: env.frames.drop (depth + 1)) = some s := by
    rw [lookup, hs]
  calc env.get? id
    _ = lookup id (env.frames.take depth ++ frame :: env.frames.drop (depth + 1)) := by
      rw [← hsplit]
      rfl
    _ = (env.hiding? depth id).or (some s) := by
      rw [lookup_append, hrest]
      rfl
    _ = some ((env.hiding? depth id).getD s) := by
      cases env.hiding? depth id <;> rfl

/-- A variable of any scope is joined with what the other path finds under its id. -/
theorem getAt?_merge (env other : Env) (depth : Nat) (id : DeclId) :
    (env.merge other).getAt? depth id = (env.getAt? depth id).map (other.join id) := by
  unfold getAt?
  rw [frames_merge, List.getElem?_map]
  cases env.frames[depth]? with
  | none => rfl
  | some frame => exact Table.get?_map other.join frame id

/-! ## Joining a copy -/

/-- What can be looked up is not changed by a copy. -/
theorem get?_merge_self (env : Env) (id : DeclId) : (env.merge env).get? id = env.get? id := by
  rw [get?_merge]
  cases h : env.get? id with
  | none => rfl
  | some s => simp [join, level?, h]

/-- In every scope, a copy makes the variables meet those that hide them. -/
theorem getAt?_merge_self (env : Env) (depth : Nat) (id : DeclId) :
    (env.merge env).getAt? depth id =
      (env.getAt? depth id).map fun s => s.meeting (env.hiding? depth id) := by
  rw [getAt?_merge]
  cases h : env.getAt? depth id with
  | none => rfl
  | some s =>
    simp only [Option.map_some, join, level?, get?_of_getAt? h]
    cases env.hiding? depth id with
    | none => simp [VarState.meeting]
    | some t => rfl

/-- Where no id occurs twice, a copy changes nothing. -/
theorem merge_self_of_nodup {env : Env} (h : env.ids.Nodup) : env.merge env = env := by
  have hkeys := map_keys_frames_merge env env
  refine eq_of_get? hkeys ?_ fun id _ => get?_merge_self env id
  rwa [ids_of_keys hkeys]

/-- **Joining a copy of an environment weakens hidden variables, and changes nothing else.** However
the environment was built, its scopes keep their variables, and whatever can be looked up is as it
was. In each scope a variable that none further in hides is as it was, and a hidden one takes the
weaker of its level and that of the variable that hides it. So the environment is the same as before
just when every hidden variable is at least as weak as the one that hides it. -/
theorem merge_self_weakens_hidden {env : Env} (h : Built env) :
    (env.merge env).frames.map Table.keys = env.frames.map Table.keys ∧
      (∀ id, (env.merge env).get? id = env.get? id) ∧
      (∀ depth id, (env.merge env).getAt? depth id =
        (env.getAt? depth id).map fun s => s.meeting (env.hiding? depth id)) ∧
      (env.merge env = env ↔ ∀ depth id s t, env.getAt? depth id = some s →
        env.hiding? depth id = some t → s.level.meet t.level = s.level) := by
  have hkeys := map_keys_frames_merge env env
  refine ⟨hkeys, get?_merge_self env, getAt?_merge_self env, fun heq depth id s t hs ht => ?_,
    fun hmeets => ?_⟩
  · have hmet := getAt?_merge_self env depth id
    rw [heq, hs, ht] at hmet
    exact congrArg VarState.level (Option.some.inj hmet).symm
  · refine (eq_of_getAt? hkeys.symm h.scopesDistinct fun depth id => ?_).symm
    rw [getAt?_merge_self]
    cases hs : env.getAt? depth id with
    | none => rfl
    | some s =>
      rw [Option.map_some]
      cases ht : env.hiding? depth id with
      | none => rfl
      | some t => rw [VarState.meeting, hmeets depth id s t hs ht]

namespace Shadowing

/-- A variable of the given level that anything may be assigned to. -/
def plain (level : Level) : VarState :=
  .plain (.level level) none

/-- Two variables, and in a scope further in two others under the same ids: the first is stronger
than the one that hides it, the second is weaker. -/
def env : Env :=
  let outer := (({} : Env).declare ⟨1⟩ (plain .closed)).declare ⟨2⟩ (plain .bound)
  (outer.push.declare ⟨1⟩ (plain .bound)).declare ⟨2⟩ (plain .closed)

theorem built : Built env :=
  .declare (.declare (.push (.declare (.declare .empty _ _) _ _)) _ _) _ _

end Shadowing

/-- Of the two hidden variables the one that was weaker stays, and the other takes the level of the
variable that hides it. -/
theorem merge_self_weakens_hidden_shadowing :
    Built Shadowing.env ∧
      (∀ id, (Shadowing.env.merge Shadowing.env).get? id = Shadowing.env.get? id) ∧
      Shadowing.env.getAt? 1 ⟨1⟩ = some (Shadowing.plain .closed) ∧
      (Shadowing.env.merge Shadowing.env).getAt? 1 ⟨1⟩ = some (Shadowing.plain .bound) ∧
      (Shadowing.env.merge Shadowing.env).getAt? 1 ⟨2⟩ = Shadowing.env.getAt? 1 ⟨2⟩ := by
  obtain ⟨-, hvisible, hscopes, -⟩ := merge_self_weakens_hidden Shadowing.built
  refine ⟨Shadowing.built, hvisible, by decide, ?_, ?_⟩
  · rw [hscopes]
    decide
  · rw [hscopes]
    decide

/-- **Joining a copy of an environment need not leave it as it is.** Once the inner scope is left,
the first of the hidden variables is weaker than it was, although nothing was assigned to it. -/
theorem merge_self_ne_shadowing :
    Built Shadowing.env ∧
      Shadowing.env.merge Shadowing.env ≠ Shadowing.env ∧
      Shadowing.env.pop.level? ⟨1⟩ = some (.level .closed) ∧
      (Shadowing.env.merge Shadowing.env).pop.level? ⟨1⟩ = some (.level .bound) :=
  ⟨Shadowing.built, by decide, by decide, by decide⟩

end Env

/-- Wherever the walk through a method of a valid unit gets to, no variable is hidden, and joining a
copy of the environment changes nothing. -/
theorem Reached.merge_self {config : Config} {u : CompilationUnit} (hu : u.validate = .ok u)
    {m : Method} (hm : m ∈ u.allMethods) {p : Part} {env : Env}
    (h : Reached (config.context u m) m p env) : env.merge env = env :=
  Env.merge_self_of_nodup (h.fresh hu hm).nodup_ids

end Closedness
