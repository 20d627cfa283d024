import Closedness.Config.Basic
import Closedness.Toml.Document

/-!
# Reading a configuration from TOML

Every key has a default and none may be unknown. Where a table is expected an array may stand
instead, with the values of the keys in order; what it holds beyond them is ignored. Why a text is
no configuration is for its parser to say: the reason is a parameter of loading.
-/

namespace Closedness

open Toml (Value Entries)

/-- The entries of a table whose keys are `keys`, in order. -/
def Toml.Value.record? (keys : List String) : Value → Option Entries
  | .table _ entries => if entries.all fun e => e.1 ∈ keys then some entries else none
  | .array _ elements => some (keys.zip elements)
  | _ => none

/-- The value of an entry, or a default where there is none. -/
def Toml.Entries.withDefault {α : Type} (entries : Entries) (key : String) (default : α)
    (read : Value → Option α) : Option α :=
  match Toml.Entries.get? entries key with
  | none => some default
  | some value => read value

def Toml.Value.readString : Value → Option String
  | .string s => some s
  | _ => none

def Toml.Value.readBool : Value → Option Bool
  | .bool b => some b
  | _ => none

def Toml.Value.readStrings : Value → Option (List String)
  | .array _ elements => elements.mapM Toml.Value.readString
  | _ => none

/-- Reads the lists of annotation names. -/
def Names.ofToml? (v : Value) : Option Names := do
  let entries ← v.record? ["closed", "bound", "inherit", "no_inherit"]
  let defaults : Names := {}
  return {
    closed := ← entries.withDefault "closed" defaults.closed Toml.Value.readStrings
    bound := ← entries.withDefault "bound" defaults.bound Toml.Value.readStrings
    inherit := ← entries.withDefault "inherit" defaults.inherit Toml.Value.readStrings
    noInherit := ← entries.withDefault "no_inherit" defaults.noInherit Toml.Value.readStrings }

/-- Reads the choice of optional findings. -/
def Options.ofToml? (v : Value) : Option Options := do
  let entries ← v.record? ["redundant_annotations", "case_arm_narrowing", "smart_cast"]
  return {
    redundantMarkers := ← entries.withDefault "redundant_annotations" true Toml.Value.readBool
    caseArmNarrowing := ← entries.withDefault "case_arm_narrowing" true Toml.Value.readBool
    smartCast := ← entries.withDefault "smart_cast" true Toml.Value.readBool }

namespace Config

/-- Reads a configuration from the entries of a document. -/
def ofToml? (v : Value) : Option Config := do
  let entries ← v.record? ["annotations", "report"]
  return {
    names := ← entries.withDefault "annotations" {} Names.ofToml?
    options := ← entries.withDefault "report" {} Options.ofToml? }

/-- Reads a configuration from TOML text, whether valid or not. -/
def parse? (text : String) : Option Config := do
  ofToml? (.table .header (← Toml.parse? text))

/-- Reads a valid configuration from TOML text; `reason` says of a text that is no configuration why
it is not. -/
def load (reason : String → String) (text : String) : Except ConfigError Config :=
  match parse? text with
  | some config => config.validate
  | none => .error (.malformed none (reason text))

end Config

end Closedness
