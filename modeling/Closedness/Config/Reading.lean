import Closedness.Config.Basic
import Closedness.Json.Record

/-!
# Reading a configuration from JSON

Every field has a default and none may be unknown. As everywhere, records may be written by name or
by position.
-/

namespace Closedness

/-- Reads the lists of annotation names. -/
def Names.ofJson? (j : Json) : Option Names := do
  let f ← j.strictRecord? ["closed", "bound", "inherit", "no_inherit"]
  let defaults : Names := {}
  return {
    closed := ← f.withDefault "closed" defaults.closed (Json.readList Json.readString)
    bound := ← f.withDefault "bound" defaults.bound (Json.readList Json.readString)
    inherit := ← f.withDefault "inherit" defaults.inherit (Json.readList Json.readString)
    noInherit := ← f.withDefault "no_inherit" defaults.noInherit
      (Json.readList Json.readString) }

/-- Reads the choice of optional findings. -/
def Options.ofJson? (j : Json) : Option Options := do
  let f ← j.strictRecord? ["redundant_annotations", "case_arm_narrowing", "smart_cast"]
  return {
    redundantMarkers := ← f.withDefault "redundant_annotations" true Json.readBool
    caseArmNarrowing := ← f.withDefault "case_arm_narrowing" true Json.readBool
    smartCast := ← f.withDefault "smart_cast" true Json.readBool }

def Config.ofJson? (j : Json) : Option Config := do
  let f ← j.strictRecord? ["annotations", "report"]
  return {
    names := ← f.withDefault "annotations" {} Names.ofJson?
    options := ← f.withDefault "report" {} Options.ofJson? }

end Closedness
