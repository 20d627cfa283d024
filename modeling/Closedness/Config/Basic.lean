import Closedness.Diagnostic
import Closedness.Marker
import Closedness.Text.Blank

/-!
# Configuration

A `Config` says which annotation names stand for which markers and which optional kinds of findings
are reported. It is valid when no name is blank and no name is listed for two markers;
`Config.defect?` finds the first entry that is at fault.
-/

namespace Closedness

/-- Which of the optional kinds of findings are reported. -/
structure Options where
  redundantMarkers : Bool := true
  caseArmNarrowing : Bool := true
  smartCast : Bool := true
deriving DecidableEq

/-- Findings of the kind are reported. -/
def Options.admits (o : Options) : DiagnosticKind → Bool
  | .redundantMarker => o.redundantMarkers
  | .caseArmNarrowing => o.caseArmNarrowing
  | .smartCast => o.smartCast
  | .levelMismatch | .annotationConflict | .uncheckedInference => true

/-- How the analysis is set up. -/
structure Config where
  names : Names := {}
  options : Options := {}
deriving DecidableEq

/-- Why a configuration cannot be used. -/
inductive ConfigError where
  /-- The file cannot be read. -/
  | unreadable (path reason : String)
  /-- The text is no configuration; the path is that of the file it came from, and the reason is in
  the words of the parser. -/
  | malformed (path : Option String) (reason : String)
  /-- A list of names has a blank entry. -/
  | emptyName (list : String)
  /-- A name is listed for two markers. -/
  | ambiguous (name first second : String)
deriving DecidableEq

namespace ConfigError

/-- The part of the message that names the file. -/
def origin : Option String → String
  | some path => " '" ++ path ++ "'"
  | none => ""

/-- The error, worded for a reader. -/
def message : ConfigError → String
  | .unreadable path reason => "cannot read config '" ++ path ++ "': " ++ reason
  | .malformed path reason => "invalid config" ++ origin path ++ ": " ++ reason
  | .emptyName list => "annotation name in [annotations." ++ list ++ "] is empty"
  | .ambiguous name first second =>
    "annotation '" ++ name ++ "' is listed under both [annotations." ++ first
      ++ "] and [annotations." ++ second ++ "]"

/-- The error of a text that came from the file at `path`. -/
def withPath (path : String) : ConfigError → ConfigError
  | .malformed _ reason => .malformed (some path) reason
  | e => e

end ConfigError

namespace Names

/-- The lists of names, under the names they have in a configuration. -/
def lists (names : Names) : List (String × List String) :=
  [("closed", names.closed), ("bound", names.bound), ("inherit", names.inherit),
    ("no_inherit", names.noInherit)]

/-- The first entry of a list that is blank or also in one of the lists that follow. -/
def entryDefect? (list : String) (later : List (String × List String)) :
    List String → Option ConfigError
  | [] => none
  | name :: rest =>
    if Text.isBlank name then some (.emptyName list)
    else
      match later.find? fun l => name ∈ l.2 with
      | some other => some (.ambiguous name list other.1)
      | none => entryDefect? list later rest

/-- The first fault among several lists. -/
def listDefect? : List (String × List String) → Option ConfigError
  | [] => none
  | (list, names) :: later =>
    match entryDefect? list later names with
    | some e => some e
    | none => listDefect? later

end Names

namespace Config

/-- The first entry of a configuration that is at fault. -/
def defect? (c : Config) : Option ConfigError :=
  Names.listDefect? c.names.lists

/-- The configuration itself, if no entry is at fault. -/
def validate (c : Config) : Except ConfigError Config :=
  match c.defect? with
  | none => .ok c
  | some e => .error e

end Config

end Closedness
