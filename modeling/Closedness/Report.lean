import Closedness.Diagnostic
import Closedness.Program.Reading

/-!
# Reports

A `Report` is what the analysis of one unit hands out: its findings in source order and the
declarations whose annotations conflict. Reports are written to and read from JSON; a diagnostic
that has no `required` or `actual` level is written without it.
-/

namespace Closedness

/-- The findings about one unit. -/
structure Report where
  /-- The name of the unit. -/
  unit : String
  diagnostics : List Diagnostic
  /-- Declarations whose annotations conflict. -/
  unreliable : List DeclId
deriving DecidableEq

namespace Report

/-- The number of findings of a kind. -/
def count (r : Report) (kind : DiagnosticKind) : Nat :=
  r.diagnostics.countP fun d => d.kind = kind

/-- The number of findings of at least the given severity. -/
def countAtLeast (r : Report) (severity : Severity) : Nat :=
  r.diagnostics.countP fun d => severity.rank ≤ d.severity.rank

/-- Some finding is an error. -/
def hasErrors (r : Report) : Bool :=
  0 < r.countAtLeast .error

/-- The report as lines of text: its findings, then its unreliable declarations. -/
def lines (r : Report) : List String :=
  (r.diagnostics.map fun d => r.unit ++ ": " ++ d.display)
    ++ r.unreliable.map fun id =>
      r.unit ++ ": note: inferences about declaration " ++ id.display
        ++ " rely on conflicting annotations"

end Report

/-! ## Reports as JSON -/

def Level.name : Level → String
  | .inherit => "inherit"
  | .bound => "bound"
  | .closed => "closed"

def Level.ofJson? : Json → Option Level :=
  Json.readName ([.inherit, .bound, .closed].map fun l => (l.name, l))

def DiagnosticKind.ofJson? : Json → Option DiagnosticKind :=
  Json.readName (all.map fun k => (k.name, k))

def Severity.ofJson? : Json → Option Severity :=
  Json.readName (all.map fun s => (s.name, s))

namespace Diagnostic

/-- A level that is written only when it is there. -/
def levelMember (name : String) : Option Level → List (String × Json)
  | some l => [(name, .string l.name)]
  | none => []

def toJson (d : Diagnostic) : Json :=
  .object (
    [("span", d.span.toJson), ("kind", .string d.kind.name), ("severity", .string d.severity.name)]
      ++ levelMember "required" d.required
      ++ levelMember "actual" d.actual
      ++ [("message", .string d.message)])

def ofJson? (j : Json) : Option Diagnostic := do
  let f ← j.record? ["span", "kind", "severity", "required", "actual", "message"]
  return {
    span := ← f.required "span" Span.ofJson?
    kind := ← f.required "kind" DiagnosticKind.ofJson?
    severity := ← f.required "severity" Severity.ofJson?
    required := ← f.optional "required" Level.ofJson?
    actual := ← f.optional "actual" Level.ofJson?
    message := ← f.required "message" Json.readString }

end Diagnostic

namespace Report

def toJson (r : Report) : Json :=
  .object [
    ("unit", .string r.unit),
    ("diagnostics", .ofList Diagnostic.toJson r.diagnostics),
    ("unreliable", .ofList DeclId.toJson r.unreliable)]

/-- Reads a report; every field is required. -/
def ofJson? (j : Json) : Option Report := do
  let f ← j.record? ["unit", "diagnostics", "unreliable"]
  return {
    unit := ← f.required "unit" Json.readString
    diagnostics := ← f.required "diagnostics" (Json.readList Diagnostic.ofJson?)
    unreliable := ← f.required "unreliable" (Json.readList DeclId.ofJson?) }

/-- Reads a report from JSON text. -/
def parse? (text : String) : Option Report :=
  (Json.parse? text).bind ofJson?

/-- Several reports as one JSON text. -/
def listText (reports : List Report) : String :=
  (Json.ofList toJson reports).pretty

end Report

end Closedness
