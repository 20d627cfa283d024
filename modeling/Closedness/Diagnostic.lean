import Closedness.Level
import Closedness.Span

/-!
# Diagnostics

A `Diagnostic` is one finding: where, of what kind, how severe, and what to tell the reader. Each
kind has a severity of its own and a constructor that words the message.
-/

namespace Closedness

/-- How much a finding matters, from least to most. -/
inductive Severity where
  | hint
  | info
  | warning
  | error
deriving DecidableEq

namespace Severity

/-- The place of a severity in the order. -/
def rank : Severity → Nat
  | .hint => 0
  | .info => 1
  | .warning => 2
  | .error => 3

def name : Severity → String
  | .hint => "hint"
  | .info => "info"
  | .warning => "warning"
  | .error => "error"

/-- Every severity, from least to most. -/
def all : List Severity := [.hint, .info, .warning, .error]

end Severity

/-- What a finding is about. -/
inductive DiagnosticKind where
  /-- A value is weaker than its position requires. -/
  | levelMismatch
  /-- A declaration carries contradictory markers. -/
  | annotationConflict
  /-- A value that nothing is inferred about reaches a position with a requirement. -/
  | uncheckedInference
  /-- An arm takes a value for stronger than it is, because the variant's annotation says so. -/
  | caseArmNarrowing
  /-- An annotation repeats what is known of the value. -/
  | redundantMarker
  /-- A value is stronger than its position requires. -/
  | smartCast
deriving DecidableEq

namespace DiagnosticKind

/-- The severity that findings of a kind have. -/
def severity : DiagnosticKind → Severity
  | .levelMismatch | .caseArmNarrowing => .warning
  | .annotationConflict => .error
  | .uncheckedInference | .smartCast => .info
  | .redundantMarker => .hint

def name : DiagnosticKind → String
  | .levelMismatch => "level_mismatch"
  | .annotationConflict => "annotation_conflict"
  | .uncheckedInference => "unchecked_inference"
  | .caseArmNarrowing => "case_arm_narrowing"
  | .redundantMarker => "redundant_annotation"
  | .smartCast => "smart_cast"

def all : List DiagnosticKind :=
  [.levelMismatch, .annotationConflict, .uncheckedInference, .caseArmNarrowing, .redundantMarker,
    .smartCast]

end DiagnosticKind

/-- One finding. -/
structure Diagnostic where
  span : Span
  kind : DiagnosticKind
  severity : Severity
  /-- The level the position asks for, when the finding is about a position. -/
  required : Option Level
  /-- The level the value has, when it is known. -/
  actual : Option Level
  message : String
deriving DecidableEq

namespace Diagnostic

/-- A finding with the severity of its kind. -/
def ofKind (kind : DiagnosticKind) (span : Span) (required actual : Option Level)
    (message : String) : Diagnostic :=
  { span, kind, severity := kind.severity, required, actual, message }

/-- A value of level `actual` stands where `required` is asked for. -/
def levelMismatch (span : Span) (required actual : Level) : Diagnostic :=
  ofKind .levelMismatch span (some required) (some actual)
    ("'" ++ actual.display ++ "' is not assignable to '" ++ required.display ++ "'")

/-- The marker `loser` is ignored, because `winner` stands beside it. -/
def annotationConflict (span : Span) (winner loser : String) : Diagnostic :=
  ofKind .annotationConflict span none none
    ("'@" ++ loser ++ "' conflicts with '@" ++ winner ++ "' and is ignored")

/-- A value that nothing is inferred about stands where `required` is asked for. -/
def uncheckedInference (span : Span) (required : Level) : Diagnostic :=
  ofKind .uncheckedInference span (some required) none
    ("result of a '@NoInherit' method is not inferred; check manually that it is '"
      ++ required.display ++ "'")

/-- A variant of level `variant` matches a value of level `actual`. -/
def caseArmNarrowing (span : Span) (variant actual : Level) : Diagnostic :=
  ofKind .caseArmNarrowing span (some variant) (some actual)
    ("case arm treats a '" ++ actual.display ++ "' value as '" ++ variant.display
      ++ "' because of the variant annotation")

/-- An annotation asks for the level that the value has already. -/
def redundantMarker (span : Span) (level : Level) : Diagnostic :=
  ofKind .redundantMarker span (some level) (some level)
    ("unused annotation: the value is already '" ++ level.display ++ "'")

/-- A value of level `actual` stands where the weaker `required` suffices. -/
def smartCast (span : Span) (required actual : Level) : Diagnostic :=
  ofKind .smartCast span (some required) (some actual)
    ("'" ++ actual.display ++ "' value is implicitly cast to '" ++ required.display ++ "'")

/-- The finding as one line of text. -/
def display (d : Diagnostic) : String :=
  d.severity.name ++ "[" ++ d.kind.name ++ "] " ++ d.span.position ++ ": " ++ d.message

end Diagnostic

end Closedness
