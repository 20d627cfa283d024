import Closedness.Level
import Closedness.Program.Basic

/-!
# From annotations to markers

`Names` lists which simple annotation names stand for which marker; all other annotations are
ignored. When a declaration carries several markers the greatest wins, in the order
`inherit < bound < closed < noInherit`, at the last annotation that carries it; every other marker
present is a conflict, noted once, at the first annotation that carries it.
-/

namespace Closedness

/-- The annotations that the analysis understands, from weakest to strongest claim. -/
inductive Marker where
  | inherit
  | bound
  | closed
  | noInherit
deriving DecidableEq

namespace Marker

/-- The place of a marker in the order of priority. -/
def priority : Marker → Nat
  | .inherit => 0
  | .bound => 1
  | .closed => 2
  | .noInherit => 3

/-- What a marker asks for. -/
def binding : Marker → Binding
  | .inherit => .level .inherit
  | .bound => .level .bound
  | .closed => .level .closed
  | .noInherit => .noInherit

end Marker

/-- The simple annotation names that stand for each marker. -/
structure Names where
  closed : List String := ["Closed"]
  bound : List String := ["Bound"]
  inherit : List String := ["Inherit"]
  noInherit : List String := ["NoInherit"]
deriving DecidableEq

/-- A marker that a stronger one on the same declaration overrides. -/
structure Conflict where
  /-- Where the overridden annotation stands. -/
  span : Span
  winner : String
  loser : String
deriving DecidableEq

/-- What the annotations of one declaration amount to. -/
structure Resolution where
  /-- `none` when no annotation is a marker. -/
  binding : Option Binding := none
  /-- Where the winning annotation stands. -/
  span : Option Span := none
  conflicts : List Conflict := []
deriving DecidableEq

namespace Names

/-- The marker an annotation is; a name listed for several markers counts as the strongest. -/
def marker? (names : Names) (a : Annot) : Option Marker :=
  let name := a.simpleName
  if name ∈ names.noInherit then some .noInherit
  else if name ∈ names.closed then some .closed
  else if name ∈ names.bound then some .bound
  else if name ∈ names.inherit then some .inherit
  else none

/-- The annotations that are markers, each with its marker. -/
def marked (names : Names) (annots : List Annot) : List (Marker × Annot) :=
  annots.filterMap fun a => (names.marker? a).map fun m => (m, a)

/-- The stronger of two marked annotations; of equal ones, the later. -/
def stronger (a b : Marker × Annot) : Marker × Annot :=
  if a.1.priority ≤ b.1.priority then b else a

/-- The first annotation of each marker other than `best`, in order. -/
def losers (best : Marker) : List (Marker × Annot) → List Marker → List Annot
  | [], _ => []
  | (m, a) :: rest, seen =>
    if m = best ∨ m ∈ seen then losers best rest seen else a :: losers best rest (m :: seen)

/-- What a list of annotations amounts to. -/
def resolve (names : Names) (annots : List Annot) : Resolution :=
  match names.marked annots with
  | [] => {}
  | first :: rest =>
    let (best, winner) := rest.foldl stronger first
    { binding := some best.binding
      span := some winner.span
      conflicts := (losers best (first :: rest) []).map fun loser =>
        { span := loser.span, winner := winner.simpleName, loser := loser.simpleName } }

end Names

end Closedness
