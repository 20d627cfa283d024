import Closedness.Proofs.Variables

/-!
# Scopes at every point

`Env.KeepsScopes assigned before after` says scope by scope what a walk that assigns to the given
variables leaves of an environment: the scopes are as many as before, all but the innermost hold
the same variables, the innermost may have gained some, and each variable stays in its scope with
its type and its pin. Its level changes only if it is not pinned and is assigned to.

`Env.Evolves` describes a walk by what is found under an id. Where no id occurs twice that is what
the scope of the id holds (`Env.get?_of_mem_frames`), so the two descriptions agree at every point
that the walk through a valid unit reaches (`Reached.keepsScopes`).
-/

namespace Closedness

/-- The variables of a scope are still in it, and only assignments have changed their levels. -/
def Frame.Kept (assigned : List DeclId) (before after : Frame) : Prop :=
  ∀ {id s}, before.get? id = some s → ∃ level, after.get? id = some { s with level } ∧
    (level = s.level ∨ s.pinned = none ∧ id ∈ assigned)

namespace Env

/-- What a walk that assigns to the given variables leaves of the scopes of an environment. -/
structure KeepsScopes (assigned : List DeclId) (before after : Env) : Prop where
  distinct : before.ids.Nodup
  distinct_after : after.ids.Nodup
  depth : after.frames.length = before.frames.length
  outer : after.outer.map Table.keys = before.outer.map Table.keys
  inner : before.inner.keys <+: after.inner.keys
  kept : List.Forall₂ (Frame.Kept assigned) before.frames after.frames

/-- Without shadowing, what any scope holds is what is found. -/
theorem get?_of_mem_frames {env : Env} (hnodup : env.ids.Nodup) {frame : Frame}
    (hframe : frame ∈ env.frames) {id : DeclId} {s : VarState} (hs : frame.get? id = some s) :
    env.get? id = some s :=
  All.lookup_of_mem hnodup hframe (Table.mem_of_find? hs)

namespace Evolves

variable {declared assigned : List DeclId} {before after : Env}

theorem length_frames (h : Evolves declared assigned before after) :
    after.frames.length = before.frames.length := by
  have houter := congrArg List.length h.outer
  simp only [List.length_map] at houter
  simp only [frames, List.length_cons, houter]

/-- Every scope keeps its variables. -/
theorem keys_subset (h : Evolves declared assigned before after) :
    List.Forall₂ (fun b a : Frame => b.keys ⊆ a.keys) before.frames after.frames := by
  obtain ⟨new, -, hinner⟩ := h.inner
  refine .cons ?_ ?_
  · rw [hinner]
    exact List.subset_append_left ..
  · have houter : List.Forall₂ Eq (before.outer.map Table.keys) (after.outer.map Table.keys) := by
      rw [List.forall₂_eq_eq_eq]
      exact h.outer.symm
    rw [List.forall₂_map_left_iff, List.forall₂_map_right_iff] at houter
    exact houter.imp fun b a heq => heq ▸ List.Subset.refl _

/-- A walk that evolves from fresh variables keeps the scopes. -/
theorem keepsScopes (hf : before.Fresh declared) (h : Evolves declared assigned before after) :
    KeepsScopes assigned before after := by
  have hafter : after.Fresh [] := h.fresh (by rwa [List.append_nil])
  refine ⟨hf.nodup_ids, hafter.nodup_ids, h.length_frames, h.outer, ?_, ?_⟩
  · obtain ⟨new, -, hinner⟩ := h.inner
    exact ⟨new, hinner.symm⟩
  · refine List.forall₂_iff_zip.2 ⟨h.length_frames.symm, fun {b a} hzip => ?_⟩
    have hkeys : b.keys ⊆ a.keys := (List.forall₂_iff_zip.1 h.keys_subset).2 hzip
    obtain ⟨hb, ha⟩ := List.of_mem_zip hzip
    intro id s hs
    obtain ⟨level, hget, hlevel⟩ := h.kept (get?_of_mem_frames hf.nodup_ids hb hs)
    -- the id is found in one scope only, and the scope that held it still does
    have hid : id ∈ b.keys := Table.get?_isSome_iff.1 (by rw [hs]; rfl)
    obtain ⟨t, ht⟩ := Option.isSome_iff_exists.1 (Table.get?_isSome_iff.2 (hkeys hid))
    have hsame : some t = some { s with level } := by
      rw [← get?_of_mem_frames hafter.nodup_ids ha ht, hget]
    exact ⟨level, ht.trans hsame, hlevel⟩

end Evolves

end Env

section Points

variable {config : Config} {u : CompilationUnit} {m : Method}

/-- Every part that is reached keeps the scopes it starts from. -/
theorem Reached.keepsScopes (hu : u.validate = .ok u) (hm : m ∈ u.allMethods) {p : Part} {env : Env}
    (h : Reached (config.context u m) m p env) :
    env.KeepsScopes p.assigned (p.run (config.context u m) env).env := by
  have hf := h.fresh hu hm
  exact (p.run_evolves (config.context u m) env hf).keepsScopes hf

/-- **Scopes are kept.** Wherever the walk through a method of a valid unit evaluates an expression
or runs a statement, the scopes are kept, and a block leaves the variables of every scope as they
are. -/
theorem scopes_kept (config : Config) {u : CompilationUnit} (hu : u.validate = .ok u) {m : Method}
    (hm : m ∈ u.allMethods) :
    (∀ e env, Reached (config.context u m) m (.expr e) env →
      env.KeepsScopes e.assigned (eval (config.context u m) e env).env) ∧
    (∀ s env, Reached (config.context u m) m (.stmt s) env →
      env.KeepsScopes s.assigned (exec (config.context u m) s env).env) ∧
    ∀ b env, Reached (config.context u m) m (.block b) env →
      env.KeepsScopes b.assigned (execBlock (config.context u m) b env).env ∧
        (execBlock (config.context u m) b env).env.frames.map Table.keys =
          env.frames.map Table.keys := by
  refine ⟨fun e env h => h.keepsScopes hu hm, fun s env h => h.keepsScopes hu hm, ?_⟩
  rintro ⟨stmts, span⟩ env h
  refine ⟨h.keepsScopes hu hm, ?_⟩
  rw [execBlock]
  exact ((execAll_evolves _ stmts).inScope_apply (h.fresh hu hm)).keys_frames

end Points

/-- The block that assigns to a pinned local and to a parameter: both stay where they are, the local
with its level and the parameter with that of the value. -/
theorem scopes_kept_branching :
    Branching.unit.validate = .ok Branching.unit ∧
      ∃ b env, Reached Branching.context Branching.method (.block b) env ∧
        b.assigned = [⟨3⟩, ⟨2⟩] ∧
        env.frames.map Table.keys = [[], [⟨1⟩, ⟨2⟩, ⟨3⟩]] ∧
        [⟨2⟩, ⟨3⟩].map env.level? = [some .inherit, some (.level .bound)] ∧
        [⟨2⟩, ⟨3⟩].map (execBlock Branching.context b env).env.level? =
          [some (.level .closed), some (.level .bound)] ∧
        env.KeepsScopes b.assigned (execBlock Branching.context b env).env := by
  have hstart : Reached Branching.context Branching.method _ _ := .start rfl
  have hif := (hstart.enter .restStmts).enter .firstStmt
  have hblock := (hif.enter .ifBranches).enter .thenBranch
  obtain ⟨-, -, hkept⟩ := scopes_kept {} (u := Branching.unit) rfl List.mem_cons_self
  exact ⟨rfl, _, _, hblock, rfl, by decide, by decide, by decide, (hkept _ _ hblock).1⟩

end Closedness
