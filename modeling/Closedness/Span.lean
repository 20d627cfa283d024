/-!
# Source locations and declaration ids

A front end hands over its program with every node located and every declaration numbered.
Locations are carried through unchanged, so a finding points at exactly what the front end sent;
the only places that look inside one are the source order of findings (`Span.start`) and the
position text (`Span.position`).
-/

namespace Closedness

/-- Location of a declaration, annotation, expression or pattern in its source file. -/
structure Span where
  /-- Offset of the first byte. -/
  start : UInt64
  /-- Offset just past the last byte. -/
  stop : UInt64
  /-- Lines and columns count from 1; 0 stands for "offsets only". -/
  startLine : UInt64 := 0
  endLine : UInt64 := 0
  startColumn : UInt64 := 0
  endColumn : UInt64 := 0
deriving DecidableEq, Inhabited

namespace Span

/-- The smallest span covering both: each end, with its column, comes from the span that reaches
further, and on a tie from the first. -/
def merge (a b : Span) : Span :=
  let first := if a.start ≤ b.start then a else b
  let last := if b.stop ≤ a.stop then a else b
  { start := first.start
    stop := last.stop
    startLine := if a.startLine ≤ b.startLine then a.startLine else b.startLine
    endLine := if b.endLine ≤ a.endLine then a.endLine else b.endLine
    startColumn := first.startColumn
    endColumn := last.endColumn }

/-- Where the span starts, as `line:column`. -/
def position (s : Span) : String :=
  s!"{s.startLine.toNat}:{s.startColumn.toNat}"

end Span

/-- The number by which references name a declaration. -/
structure DeclId where
  val : UInt32
deriving DecidableEq, Inhabited

namespace DeclId

/-- A declaration is shown as its number after a hash sign. -/
def display (id : DeclId) : String :=
  s!"#{id.val.toNat}"

end DeclId

end Closedness
