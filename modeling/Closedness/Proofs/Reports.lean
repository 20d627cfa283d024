import Closedness.Proofs.Runs

/-!
# Reports that are printed can be read

What a run prints as JSON is read back as the reports it was printed for
(`Report.printed_list_read_back`). A level that a finding does not have is not written, and is
absent from what is read.
-/

namespace Closedness

/-! ## Names -/

@[simp] theorem Level.ofJson?_name (l : Level) : Level.ofJson? (.string l.name) = some l := by
  cases l <;> rfl

@[simp] theorem DiagnosticKind.ofJson?_name (k : DiagnosticKind) :
    DiagnosticKind.ofJson? (.string k.name) = some k := by
  cases k <;> rfl

@[simp] theorem Severity.ofJson?_name (s : Severity) :
    Severity.ofJson? (.string s.name) = some s := by
  cases s <;> rfl

/-! ## Findings and reports -/

@[simp] theorem Json.Fields.optional_nil {α : Type} (name : String) (read : Json → Option α) :
    Fields.optional [] name read = some none := rfl

/-- A finding is read from what it is written as, whichever of its two levels are there. -/
theorem Diagnostic.ofJson?_toJson (d : Diagnostic) : Diagnostic.ofJson? d.toJson = some d := by
  obtain ⟨span, kind, severity, required, actual, message⟩ := d
  cases required <;> cases actual <;>
    simp [ofJson?, toJson, levelMember, Json.record?, Json.uniqueNames, Json.readOption]

namespace Report

/-- A report that is written is read back. -/
theorem ofJson?_toJson (r : Report) : ofJson? r.toJson = some r := by
  have hdiagnostics := Json.readList_ofList Diagnostic.ofJson?_toJson r.diagnostics
  have hunreliable := Json.readList_ofList DeclId.ofJson?_toJson r.unreliable
  simp [ofJson?, toJson, hdiagnostics, hunreliable]

/-- Reads several reports from one JSON text. -/
def parseList? (text : String) : Option (List Report) :=
  (Json.parse? text).bind (Json.readList ofJson?)

/-- **Printed reports are read back.** Whatever reports a run prints as JSON, reading the text gives
exactly these reports, and so the same number of findings of each kind and from each severity on,
and the same errors. -/
theorem printed_list_read_back (reports : List Report) :
    let parsed := parseList? (CommandLine.reportText true reports)
    parsed = some reports ∧
      (∀ kind, parsed.map (List.map fun r => r.count kind) =
        some (reports.map fun r => r.count kind)) ∧
      (∀ severity, parsed.map (List.map fun r => r.countAtLeast severity) =
        some (reports.map fun r => r.countAtLeast severity)) ∧
      parsed.map (List.map hasErrors) = some (reports.map hasErrors) := by
  intro parsed
  have hparsed : parsed = some reports := by
    show (Json.parse? _).bind _ = _
    rw [(CommandLine.printsArray_reportText reports).parses, Option.bind_some]
    exact Json.readList_ofList ofJson?_toJson reports
  rw [hparsed]
  exact ⟨rfl, fun _ => rfl, fun _ => rfl, rfl⟩

end Report

end Closedness
