import Closedness.Proofs.Findings
import Closedness.Proofs.Mirroring
import Closedness.Proofs.Shape
import Mathlib.Data.List.Nodup

/-!
# Ids are only names

A run over a unit whose declarations have other ids logs the same findings and marks the same
declarations under their other ids (`runLog_relabel`). Findings show no ids, so the report has the
same diagnostics; the unreliable declarations come by number, so their order may change, and
nothing else does (`renaming_keeps_report`).
-/

namespace Closedness

/-- The unit whose declarations have other ids. -/
def CompilationUnit.rename (r : DeclId → DeclId) (u : CompilationUnit) : CompilationUnit :=
  u.relabel { decl := r }

/-- The same error about declarations that have other ids. -/
def UnitError.rename (r : DeclId → DeclId) : UnitError → UnitError
  | .malformed reason => .malformed reason
  | .duplicate id first second => .duplicate (r id) first second
  | .unknown id role span => .unknown (r id) role span

/-! ## Relabelled logs -/

section Logs

variable (r : Relabeling) (log : List Event)

/-- The diagnostics of a relabelled log are relabelled. -/
theorem Event.diagnostics_relabel :
    diagnostics (log.map (relabel r)) = (diagnostics log).map (Diagnostic.relabel r) := by
  rw [diagnostics, diagnostics, List.filterMap_map, List.map_filterMap]
  congr 1
  funext e
  cases e <;> rfl

/-- A relabelled log makes the relabelled declarations unreliable. -/
theorem Event.mem_unreliable_relabel {id : DeclId} :
    .unreliable id ∈ log.map (relabel r) ↔ ∃ id', .unreliable id' ∈ log ∧ r.decl id' = id := by
  constructor
  · intro h
    obtain ⟨e, he, hid⟩ := List.mem_map.1 h
    cases e with
    | unreliable id' => exact ⟨id', he, Event.unreliable.inj hid⟩
    | found _ | noted _ => cases hid
  · rintro ⟨id', he, rfl⟩
    exact List.mem_map.2 ⟨_, he, rfl⟩

end Logs

/-! ## Reports -/

section Reports

variable {r : Relabeling} (hr : Function.Injective r.decl) (config : Config) (u : CompilationUnit)
include hr

/-- The diagnostics of a relabelled unit are those of the unit, relabelled before they are put in
source order. -/
theorem check_diagnostics_relabel :
    (check config (u.relabel r)).diagnostics
      = Findings.sortDiagnostics ((Event.diagnostics (runLog config u)).map
        (Diagnostic.relabel r)) := by
  rw [← Event.diagnostics_relabel, ← runLog_relabel hr, ← Findings.diagnostics_ofLog]
  rfl

/-- The declarations that a relabelled unit marks are those of the unit, by their other number. -/
theorem check_unreliable_relabel :
    (check config (u.relabel r)).unreliable
      = Findings.sortIds ((check config u).unreliable.map r.decl) := by
  have hascending : (Findings.sortIds ((check config u).unreliable.map r.decl)).Pairwise
      fun a b => a.val < b.val := by
    refine Findings.pairwise_sortIds (List.Nodup.map hr ?_)
    exact (List.mergeSort_perm _ _).nodup_iff.2 (Findings.nodup_unreliable_ofLog _)
  refine Findings.eq_of_mem_iff (pairwise_check_unreliable config _) hascending fun id => ?_
  have hlog : ∀ (v : CompilationUnit) (id : DeclId),
      id ∈ (check config v).unreliable ↔ .unreliable id ∈ runLog config v := fun v id =>
    Findings.mem_sortIds.trans (Findings.mem_unreliable_ofLog _ id)
  rw [hlog, runLog_relabel hr, Event.mem_unreliable_relabel, Findings.mem_sortIds, List.mem_map]
  simp only [hlog]

end Reports

/-- **Ids are only names.** A unit whose declarations have other ids, with different ids for
different declarations, has the same diagnostics in the same order, and its unreliable declarations
are the same ones, by their other number. It is valid just when the unit is, and otherwise has the
same defect. -/
theorem renaming_keeps_report {r : DeclId → DeclId} (hr : Function.Injective r) (config : Config)
    (u : CompilationUnit) :
    (check config (u.rename r)).diagnostics = (check config u).diagnostics ∧
    (check config (u.rename r)).unreliable =
      Findings.sortIds ((check config u).unreliable.map r) ∧
    ((u.rename r).validate = .ok (u.rename r) ↔ u.validate = .ok u) ∧
    ∀ e, u.validate = .error e → (u.rename r).validate = .error (e.rename r) := by
  have hvalidate := CompilationUnit.validate_relabel (r := { decl := r }) hr u
  rw [← CompilationUnit.rename] at hvalidate
  refine ⟨?_, check_unreliable_relabel hr config u, ?_, ?_⟩
  · -- a diagnostic has no id
    have hsame : Diagnostic.relabel { decl := r } = id := rfl
    rw [CompilationUnit.rename, check_diagnostics_relabel hr, hsame, List.map_id,
      ← Findings.diagnostics_ofLog]
    rfl
  · rw [hvalidate]
    unfold CompilationUnit.validate
    cases u.defect? <;> simp
  · intro e he
    rw [hvalidate, he]
    cases e <;> rfl

/-! ## Numbering backwards -/

/-- The ids from the last to the first. -/
def DeclId.complement (id : DeclId) : DeclId :=
  ⟨~~~id.val⟩

theorem DeclId.complement_injective : Function.Injective complement := by
  rintro ⟨a⟩ ⟨b⟩ h
  have hnot : ~~~a = ~~~b := congrArg DeclId.val h
  rw [UInt32.not_inj.1 hnot]

/-- `m(@Closed @Bound Term x, @Closed @Bound Term y) { … }`, where the second parameter has the
given id. -/
def conflictingParams (id : UInt32) (value : Expr) : CompilationUnit :=
  let markers : List Annot :=
    [{ name := "Closed", span := .spot 1 }, { name := "Bound", span := .spot 2 }]
  let param (id : UInt32) (name : String) : Param :=
    { id := ⟨id⟩, name, type := "Term", annots := markers, isVarargs := false, span := .spot 3 }
  { name := "backwards"
    types := []
    methods := [
      { id := ⟨0⟩, name := "m", isStatic := true, annots := [], returnType := none,
        params := [param 1 "x", param id "y"], body := some (.mk [.expr value (.spot 4)] (.spot 4)),
        span := .spot 0 }] }

/-- Both parameters have conflicting annotations, whatever they are numbered; with one id for both,
or where a name is not declared, the defect is the same. -/
theorem renaming_keeps_report_backwards :
    let u := conflictingParams 2 (.var ⟨1⟩ (.spot 5))
    u.validate = .ok u ∧
      (u.rename DeclId.complement).validate = .ok (u.rename DeclId.complement) ∧
      (check {} u).unreliable = [⟨1⟩, ⟨2⟩] ∧
      (check {} (u.rename DeclId.complement)).unreliable = [⟨4294967293⟩, ⟨4294967294⟩] ∧
      (check {} (u.rename DeclId.complement)).diagnostics = (check {} u).diagnostics ∧
      ((conflictingParams 1 (.var ⟨1⟩ (.spot 5))).rename DeclId.complement).validate =
        .error (.duplicate ⟨4294967294⟩ (.spot 3) (.spot 3)) ∧
      ((conflictingParams 2 (.var ⟨9⟩ (.spot 5))).rename DeclId.complement).validate =
        .error (.unknown ⟨4294967286⟩ .variable (.spot 5)) := by
  intro u
  obtain ⟨hdiagnostics, hunreliable, hvalid, -⟩ :=
    renaming_keeps_report DeclId.complement_injective {} u
  have hmarked : (check {} u).unreliable = [⟨1⟩, ⟨2⟩] := by
    show Findings.sortIds [⟨1⟩, ⟨2⟩] = _
    simp [Findings.sortIds, List.mergeSort]
  have hrenamed : Findings.sortIds ([⟨1⟩, ⟨2⟩].map DeclId.complement)
      = [⟨4294967293⟩, ⟨4294967294⟩] := by
    show Findings.sortIds [⟨4294967294⟩, ⟨4294967293⟩] = _
    simp [Findings.sortIds, List.mergeSort]
  have hu : u.validate = .ok u := rfl
  obtain ⟨-, -, -, hduplicate⟩ :=
    renaming_keeps_report DeclId.complement_injective {} (conflictingParams 1 (.var ⟨1⟩ (.spot 5)))
  obtain ⟨-, -, -, hunknown⟩ :=
    renaming_keeps_report DeclId.complement_injective {} (conflictingParams 2 (.var ⟨9⟩ (.spot 5)))
  rw [hmarked, hrenamed] at hunreliable
  exact ⟨hu, hvalid.2 hu, hmarked, hunreliable, hdiagnostics, hduplicate _ rfl, hunknown _ rfl⟩

end Closedness
