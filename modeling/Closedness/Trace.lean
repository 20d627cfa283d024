import Closedness.Event

/-!
# The trace of a run

Every note of a run is shown as one line of text.
-/

namespace Closedness

namespace Level

/-- The bare name of a level. -/
def bareName : Level → String
  | .inherit => "Inherit"
  | .bound => "Bound"
  | .closed => "Closed"

end Level

namespace ValueLevel

/-- The structure of a value's level. -/
def describe : ValueLevel → String
  | .null => "Null"
  | .unchecked => "Unchecked"
  | .level l => "Level(" ++ l.bareName ++ ")"
  | .inherited receiver => "Inherited \x7b receiver: " ++ receiver.bareName ++ " \x7d"

end ValueLevel

namespace Site

/-- The name of a kind of site. -/
def describe : Site → String
  | .strict => "Strict"
  | .declaration => "Declaration"

end Site

namespace Verdict

/-- The structure of a verdict. -/
def describe : Verdict → String
  | .pass => "Pass"
  | .mismatch actual => "Mismatch \x7b actual: " ++ actual.bareName ++ " \x7d"
  | .cast actual => "Cast \x7b actual: " ++ actual.bareName ++ " \x7d"
  | .unchecked => "Unchecked"

end Verdict

namespace Note

/-- Something that may be missing. -/
def describeOption {α : Type} (describe : α → String) : Option α → String
  | none => "None"
  | some value => "Some(" ++ describe value ++ ")"

/-- The note as a line of text. -/
def display : Note → String
  | .conflict decl winner loser =>
    "conflict on " ++ decl.display ++ ": @" ++ winner ++ " overrides @" ++ loser
  | .model unit types components methods =>
    s!"term model for '{unit}': {types} types, {components} components, {methods} methods"
  | .method name self returns =>
    "check method '" ++ name ++ "' (this: " ++ describeOption ValueLevel.describe self
      ++ ", returns: " ++ describeOption Level.bareName returns ++ ")"
  | .markerDropped name level =>
    "'" ++ name ++ "': initializer type differs from declared type, " ++ level.display ++ " dropped"
  | .initialised name level => "local '" ++ name ++ "' = " ++ level.display
  | .judged span value required site verdict =>
    span.position ++ ": " ++ value.display ++ " against " ++ required.display ++ " ("
      ++ site.describe ++ ") -> " ++ verdict.describe
  | .matched name level incoming =>
    "pattern variable '" ++ name ++ "' = " ++ level.display ++ " (matched " ++ incoming.display
      ++ ")"
  | .done unit diagnostics unreliable =>
    s!"'{unit}': {diagnostics} diagnostics, {unreliable} unreliable declarations"

/-- The line of a note in a trace. -/
def traceLine (note : Note) : String :=
  "[DBLITY] " ++ note.display ++ "\n"

end Note

end Closedness
