import Closedness.Diagnostic

/-!
# Findings of a run

`Findings` collects diagnostics and the declarations whose annotations conflict. `Findings.finish`
hands them out in source order: diagnostics by start offset, those at one offset in the order they
were reported, and declarations by number.
-/

namespace Closedness

/-- What a run has found so far. -/
structure Findings where
  /-- In the order they were reported. -/
  diagnostics : List Diagnostic := []
  /-- Declarations with conflicting annotations, each once. -/
  unreliable : List DeclId := []

namespace Findings

/-- Adds a diagnostic. -/
def report (f : Findings) (d : Diagnostic) : Findings :=
  { f with diagnostics := f.diagnostics ++ [d] }

/-- Notes that a declaration's annotations conflict. -/
def markUnreliable (f : Findings) (id : DeclId) : Findings :=
  if id ∈ f.unreliable then f else { f with unreliable := f.unreliable ++ [id] }

/-- Diagnostics by start offset, keeping the order of those at one offset. -/
def sortDiagnostics (ds : List Diagnostic) : List Diagnostic :=
  ds.mergeSort fun a b => a.span.start ≤ b.span.start

/-- Declarations by number. -/
def sortIds (ids : List DeclId) : List DeclId :=
  ids.mergeSort fun a b => a.val ≤ b.val

/-- The diagnostics and the unreliable declarations, in source order. -/
def finish (f : Findings) : List Diagnostic × List DeclId :=
  (sortDiagnostics f.diagnostics, sortIds f.unreliable)

end Findings

end Closedness
