import Closedness.Proofs.Steps
import Mathlib.Data.List.Forall2

/-!
# Judgements and complaints

A `Judgement` is a value that meets a requirement; the log of a walk notes each one. A complaint is
a finding that a value is too weak for its position, or that nothing is inferred about it. A walk
complains just about what it judges (`Event.Complains`): its complaints are those of its judgements,
in the same order and under any options.

`Judgement.Follows` compares the judgements of one position on two walks: where the one finds a
mismatch, so does the other, or it finds the value unverified, or it is excused.
-/

namespace Closedness

/-- A value that stands where a level is required. -/
structure Judgement where
  span : Span
  value : ValueLevel
  required : Level
  site : Site
deriving DecidableEq

/-- The finding is about a value that does not satisfy its requirement, or is not known to. -/
def DiagnosticKind.isComplaint : DiagnosticKind → Bool
  | .levelMismatch | .uncheckedInference => true
  | .annotationConflict | .caseArmNarrowing | .redundantMarker | .smartCast => false

def Verdict.isMismatch : Verdict → Bool
  | .mismatch _ => true
  | .pass | .cast _ | .unchecked => false

namespace Judgement

def verdict (j : Judgement) : Verdict :=
  judge j.required j.value j.site

/-- What there is to complain about. -/
def complaint? (j : Judgement) : Option Diagnostic :=
  match j.verdict with
  | .mismatch actual => some (.levelMismatch j.span j.required actual)
  | .unchecked => some (.uncheckedInference j.span j.required)
  | .pass | .cast _ => none

/-- Two judgements of one position: a mismatch stays one, unless the value is unverified or
excused. -/
structure Follows (excused : Judgement → Prop) (j j' : Judgement) : Prop where
  span : j'.span = j.span
  required : j'.required = j.required
  site : j'.site = j.site
  mismatch : j.verdict.isMismatch →
    j'.verdict.isMismatch ∨ j'.verdict = .unchecked ∨ excused j'

/-- A judgement that follows another one under a condition does so under a weaker one. -/
theorem Follows.imp {P Q : Judgement → Prop} (hPQ : ∀ j, P j → Q j) {j j' : Judgement}
    (h : j.Follows P j') : j.Follows Q j' :=
  ⟨h.span, h.required, h.site, fun hj => (h.mismatch hj).imp_right (Or.imp_right (hPQ j'))⟩

end Judgement

namespace Event

def judgement? : Event → Option Judgement
  | .noted (.judged span value required site _) => some { span, value, required, site }
  | _ => none

/-- What a log notes as judged, in order. -/
def judgements (log : List Event) : List Judgement :=
  log.filterMap judgement?

/-- The complaints of a log, in order. -/
def complaints (log : List Event) : List Diagnostic :=
  (diagnostics log).filter fun d => d.kind.isComplaint

/-- The log complains just about what it judges. -/
def Complains (log : List Event) : Prop :=
  complaints log = (judgements log).filterMap Judgement.complaint?

/-- The log neither judges nor complains. -/
structure Silent (log : List Event) : Prop where
  judgements : judgements log = []
  complaints : complaints log = []

theorem judgements_append (a b : List Event) :
    judgements (a ++ b) = judgements a ++ judgements b :=
  List.filterMap_append

theorem complaints_append (a b : List Event) :
    complaints (a ++ b) = complaints a ++ complaints b := by
  simp only [complaints, diagnostics, List.filterMap_append, List.filter_append]

/-- Logs that complain about just what they judge do so one after the other. -/
theorem Complains.append {a b : List Event} (ha : Complains a) (hb : Complains b) :
    Complains (a ++ b) := by
  unfold Complains at *
  rw [complaints_append, judgements_append, List.filterMap_append, ha, hb]

/-! ## Logs without judgements -/

namespace Silent

theorem nil : Silent [] :=
  ⟨rfl, rfl⟩

theorem append {a b : List Event} (ha : Silent a) (hb : Silent b) : Silent (a ++ b) where
  judgements := by rw [judgements_append, ha.judgements, hb.judgements, List.append_nil]
  complaints := by rw [complaints_append, ha.complaints, hb.complaints, List.append_nil]

theorem complains {log : List Event} (h : Silent log) : Complains log := by
  rw [Complains, h.complaints, h.judgements]
  rfl

/-- A finding of another kind is no complaint. -/
theorem finding (options : Options) {d : Diagnostic} (h : d.kind.isComplaint = false) :
    Silent (options.finding d) := by
  unfold Options.finding
  split
  · exact ⟨rfl, List.filter_eq_nil_iff.2 fun d' hd => by simp_all [diagnostics, diagnostic?]⟩
  · exact nil

theorem ofConflicts (decl : DeclId) (conflicts : List Conflict) :
    Silent (Event.ofConflicts decl conflicts) := by
  have hall : ∀ cs : List Conflict, Silent (cs.flatMap fun c =>
      [.noted (.conflict decl c.winner c.loser),
        .found (.annotationConflict c.span c.winner c.loser)]) := by
    intro cs
    induction cs with
    | nil => exact nil
    | cons c rest ih =>
      have hfirst : Silent [.noted (.conflict decl c.winner c.loser),
          .found (.annotationConflict c.span c.winner c.loser)] := ⟨rfl, rfl⟩
      exact hfirst.append ih
  cases conflicts with
  | nil => exact nil
  | cons c rest =>
    have hmark : Silent [.unreliable decl] := ⟨rfl, rfl⟩
    exact hmark.append (hall (c :: rest))

theorem redundancyLog (options : Options) (annotated : Level) (value : ValueLevel)
    (span : Option Span) : Silent (Closedness.redundancyLog options annotated value span) := by
  unfold Closedness.redundancyLog
  split
  · split
    · exact finding options rfl
    · exact nil
  · exact nil

theorem narrowingLog (options : Options) (declared : Level) (incoming : ValueLevel) (span : Span) :
    Silent (Closedness.narrowingLog options declared incoming span) := by
  unfold Closedness.narrowingLog
  split
  · split
    · split
      · exact finding options rfl
      · exact nil
    · exact nil
  · exact nil

theorem bindingLog (ctx : Context) (var : PatternVar) (incoming : ValueLevel) :
    Silent (ctx.bindingLog var incoming) := by
  unfold Context.bindingLog
  refine ((ofConflicts _ _).append ?_).append ⟨rfl, rfl⟩
  split
  · exact redundancyLog ..
  · exact nil

end Silent

/-! ## Judging a value -/

/-- The judgement that is logged about a value at a site. -/
theorem judgements_judgementLog (options : Options) (required : Level) (value : ValueLevel)
    (site : Site) (span : Span) :
    judgements (judgementLog options required value site span) =
      [{ span, value, required, site }] := by
  have hfinding : ∀ d, judgements (options.finding d) = [] := by
    intro d
    unfold Options.finding
    split <;> rfl
  simp only [judgementLog]
  cases (judge required value site).diagnostic? required span with
  | none => rfl
  | some d =>
    rw [Option.toList_some, List.flatMap_singleton]
    exact congrArg (_ :: ·) (hfinding d)

/-- What is logged about a value complains just if the judgement does. -/
theorem complains_judgementLog (options : Options) (required : Level) (value : ValueLevel)
    (site : Site) (span : Span) : Complains (judgementLog options required value site span) := by
  rw [Complains, judgements_judgementLog]
  simp only [List.filterMap_cons, List.filterMap_nil, Judgement.complaint?, Judgement.verdict,
    judgementLog]
  cases judge required value site with
  | pass => rfl
  | mismatch actual => rfl
  | unchecked => rfl
  | cast actual =>
    have hcast : Silent (options.finding (.smartCast span required actual)) :=
      .finding options rfl
    rw [Verdict.diagnostic?, Option.toList_some, List.flatMap_singleton]
    exact hcast.complaints

end Event

end Closedness
