import Closedness.Program.Validation
import Closedness.Proofs.Model
import Closedness.Proofs.Scope

/-!
# What validation guarantees

A unit that is valid has no two declarations with one id. So the parameters of each of its methods
and the variables of the body all differ, and a body starts from an environment in which everything
it declares is new (`CompilationUnit.fresh_ofParams`).
-/

namespace Closedness

namespace Declaration

/-- No declaration repeats an earlier one just when all ids differ. -/
theorem firstRepeat_eq_none_iff {seen ds : List Declaration} :
    firstRepeat seen ds = none ↔ (ids ds).Nodup ∧ ∀ d ∈ ds, d.id ∉ ids seen := by
  induction ds generalizing seen with
  | nil => simp [firstRepeat]
  | cons d rest ih =>
    have hfind : (seen.find? fun e => e.id = d.id) = none ↔ d.id ∉ ids seen := by
      simp [ids, List.find?_eq_none]
    rw [firstRepeat]
    cases hseen : seen.find? fun e => e.id = d.id with
    | some e =>
      have hmem : d.id ∈ ids seen := by
        by_contra hnew
        rw [hfind.2 hnew] at hseen
        cases hseen
      simp [hmem]
    | none =>
      have hnew : d.id ∉ ids seen := hfind.1 hseen
      have hrest : d.id ∉ ids rest ↔ ∀ e ∈ rest, e.id ≠ d.id := by simp [ids]
      simp only [ih, ids_cons, List.nodup_cons, hrest, List.mem_cons, not_or, forall_eq_or_imp]
      constructor
      · rintro ⟨hnodup, h⟩
        exact ⟨⟨fun e he => (h e he).1, hnodup⟩, hnew, fun e he => (h e he).2⟩
      · rintro ⟨⟨hne, hnodup⟩, -, h⟩
        exact ⟨hnodup, fun e he => ⟨hne e he, h e he⟩⟩

end Declaration

namespace CompilationUnit

variable {u : CompilationUnit}

/-- A unit is valid just when no declaration repeats an earlier one and every reference resolves. -/
theorem validate_eq_ok_iff : u.validate = .ok u ↔
    Declaration.firstRepeat [] u.declarations = none ∧
      ∀ r ∈ u.references, r.resolves u.declarations = true := by
  have hvalidate : u.validate = .ok u ↔ u.defect? = none := by
    unfold validate
    cases u.defect? <;> simp
  rw [hvalidate]
  simp only [defect?]
  cases Declaration.firstRepeat [] u.declarations <;> simp

/-- A valid unit gives no two declarations the same id. -/
theorem nodup_of_validate (hu : u.validate = .ok u) : (Declaration.ids u.declarations).Nodup :=
  (Declaration.firstRepeat_eq_none_iff.1 (validate_eq_ok_iff.1 hu).1).1

/-- The declarations of a method stand together in those of its unit. -/
theorem declarations_sublist {m : Method} (hm : m ∈ u.allMethods) :
    m.declarations.Sublist u.declarations := by
  rcases mem_allMethods.1 hm with ⟨t, ht, hm⟩ | hm
  · have hmethod : m.declarations.Sublist (t.methods.flatMap Method.declarations) :=
      List.sublist_flatten_of_mem (List.mem_map_of_mem hm)
    have htype : t.declarations.Sublist (u.types.flatMap TypeDecl.declarations) :=
      List.sublist_flatten_of_mem (List.mem_map_of_mem ht)
    have hmember : m.declarations.Sublist t.declarations :=
      (hmethod.trans (List.sublist_append_right ..)).cons _
    exact (hmember.trans htype).trans (List.sublist_append_left ..)
  · have hmethod : m.declarations.Sublist (u.methods.flatMap Method.declarations) :=
      List.sublist_flatten_of_mem (List.mem_map_of_mem hm)
    exact hmethod.trans (List.sublist_append_right ..)

end CompilationUnit

/-! ## Where bodies start -/

namespace Env

variable (model : Model)

/-- The state a parameter starts in. -/
def paramState (p : Param) : VarState :=
  .ofBinding (model.paramBinding p.id) none (some p.type)

/-- Declaring the parameters one by one adds them to the scope. -/
theorem ofParams_fold {params : List Param} {env : Env}
    (hf : env.Fresh (params.map Param.id)) :
    Evolves (params.map Param.id) [] env
      (params.foldl (fun env p => env.declare p.id (paramState model p)) env) := by
  induction params generalizing env with
  | nil => exact .refl env
  | cons p rest ih =>
    have hstep : Evolves [p.id] [] env (env.declare p.id (paramState model p)) :=
      .declare (show env.Fresh ([p.id] ++ rest.map Param.id) from hf).left
        (VarState.holdsPin_ofBinding _ _ _)
    exact hstep.trans (ih (hstep.fresh hf))

/-- The parameters of a method are entered one by one, if they differ. -/
theorem ofParams_evolves {params : List Param} (h : (params.map Param.id).Nodup) :
    Evolves (params.map Param.id) [] {} (ofParams model params) :=
  ofParams_fold model (by simpa [Fresh, ids, frames, Table.keys] using h)

end Env

/-- The body of a method of a valid unit starts where all its variables are new. -/
theorem CompilationUnit.fresh_ofParams {u : CompilationUnit} (hu : u.validate = .ok u)
    {m : Method} (hm : m ∈ u.allMethods) (model : Model) :
    (Env.ofParams model m.params).Fresh (Declaration.ids (Block.optionDeclarations m.body)) ∧
      (m.params.map Param.id).Nodup := by
  have hmethod : (Declaration.ids m.declarations).Nodup :=
    (nodup_of_validate hu).sublist ((declarations_sublist hm).map _)
  have hparams : Declaration.ids (m.params.map Param.declaration) = m.params.map Param.id := by
    simp [Declaration.ids, Param.declaration]
  rw [Method.declarations, Declaration.ids_cons, Declaration.ids_append, hparams] at hmethod
  have hvars := (List.nodup_cons.1 hmethod).2
  have hnodup := (List.nodup_append.1 hvars).1
  refine ⟨(Env.ofParams_evolves model hnodup).fresh ?_, hnodup⟩
  simpa [Env.Fresh, Env.ids, Env.frames, Table.keys] using hvars

end Closedness
