import Closedness.Findings
import Closedness.Judgement
import Closedness.Marker

/-!
# The log of a run

While it runs, the analysis logs what it finds: diagnostics, declarations whose annotations
conflict, and notes about the decisions it takes. A run is a list of events; the report and the
trace are two views of it (`Findings.ofLog`, `Event.notes`).
-/

namespace Closedness

/-- A decision the analysis has taken. -/
inductive Note where
  /-- A marker of a declaration overrides another. -/
  | conflict (decl : DeclId) (winner loser : String)
  /-- The declarations of a unit are tabulated. -/
  | model (unit : String) (types components methods : Nat)
  /-- A method body is entered. -/
  | method (name : String) (self : Option ValueLevel) (returns : Option Level)
  /-- The marker of a local is not kept, because its initialiser has another type. -/
  | markerDropped (name : String) (level : Level)
  /-- A local is initialised. -/
  | initialised (name : String) (level : ValueLevel)
  /-- A value is judged. -/
  | judged (span : Span) (value : ValueLevel) (required : Level) (site : Site) (verdict : Verdict)
  /-- A pattern variable is bound to a matched value. -/
  | matched (name : String) (level incoming : ValueLevel)
  /-- A unit is done. -/
  | done (unit : String) (diagnostics unreliable : Nat)
deriving DecidableEq

/-- Something worth logging. -/
inductive Event where
  | found (diagnostic : Diagnostic)
  | unreliable (decl : DeclId)
  | noted (note : Note)
deriving DecidableEq

namespace Event

def diagnostic? : Event → Option Diagnostic
  | .found d => some d
  | _ => none

def note? : Event → Option Note
  | .noted n => some n
  | _ => none

/-- The diagnostics of a log, in order. -/
def diagnostics (log : List Event) : List Diagnostic :=
  log.filterMap diagnostic?

/-- The notes of a log, in order. -/
def notes (log : List Event) : List Note :=
  log.filterMap note?

/-- What a declaration's conflicts are worth logging as. -/
def ofConflicts (decl : DeclId) : List Conflict → List Event
  | [] => []
  | conflicts => .unreliable decl :: conflicts.flatMap fun c =>
      [.noted (.conflict decl c.winner c.loser),
        .found (.annotationConflict c.span c.winner c.loser)]

end Event

namespace Findings

/-- Takes up what an event has found. -/
def add (f : Findings) : Event → Findings
  | .found d => f.report d
  | .unreliable id => f.markUnreliable id
  | .noted _ => f

/-- What a log has found. -/
def ofLog (log : List Event) : Findings :=
  log.foldl add {}

end Findings

end Closedness
