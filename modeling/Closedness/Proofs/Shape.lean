import Closedness.Proofs.Findings
import Closedness.Proofs.Preservation

/-!
# The shape of findings

A finding about a position compares two levels that say something: whatever a value is judged by
has been resolved before. The reason is that a member read through a receiver always knows a
receiver of bound or closed level (`Discipline.receivers`); every other level is resolved by
the judgement itself. So a mismatch is always a bound value where a closed one is required, and a
cast the other way round.
-/

namespace Closedness

/-- The levels a finding of each kind names. -/
structure Diagnostic.WellShaped (d : Diagnostic) : Prop where
  severity : d.severity = d.kind.severity
  required_ne_inherit : d.required ≠ some .inherit
  actual_ne_inherit : d.actual ≠ some .inherit
  levels :
    match d.kind with
    | .levelMismatch | .caseArmNarrowing => d.required = some .closed ∧ d.actual = some .bound
    | .smartCast => d.required = some .bound ∧ d.actual = some .closed
    | .redundantMarker =>
      d.required = d.actual ∧ (d.required = some .bound ∨ d.required = some .closed)
    | .uncheckedInference =>
      (d.required = some .bound ∨ d.required = some .closed) ∧ d.actual = none
    | .annotationConflict => d.required = none ∧ d.actual = none

namespace Diagnostic

theorem wellShaped_levelMismatch (span : Span) :
    (levelMismatch span .closed .bound).WellShaped :=
  ⟨rfl, nofun, nofun, rfl, rfl⟩

theorem wellShaped_caseArmNarrowing (span : Span) :
    (caseArmNarrowing span .closed .bound).WellShaped :=
  ⟨rfl, nofun, nofun, rfl, rfl⟩

theorem wellShaped_smartCast (span : Span) : (smartCast span .bound .closed).WellShaped :=
  ⟨rfl, nofun, nofun, rfl, rfl⟩

theorem wellShaped_redundantMarker {l : Level} (hl : l ≠ .inherit) (span : Span) :
    (redundantMarker span l).WellShaped := by
  cases l with
  | inherit => exact absurd rfl hl
  | bound => exact ⟨rfl, nofun, nofun, rfl, Or.inl rfl⟩
  | closed => exact ⟨rfl, nofun, nofun, rfl, Or.inr rfl⟩

theorem wellShaped_uncheckedInference {r : Level} (hr : r ≠ .inherit) (span : Span) :
    (uncheckedInference span r).WellShaped := by
  cases r with
  | inherit => exact absurd rfl hr
  | bound => exact ⟨rfl, nofun, nofun, Or.inl rfl, rfl⟩
  | closed => exact ⟨rfl, nofun, nofun, Or.inr rfl, rfl⟩

theorem wellShaped_annotationConflict (span : Span) (winner loser : String) :
    (annotationConflict span winner loser).WellShaped :=
  ⟨rfl, nofun, nofun, rfl, rfl⟩

end Diagnostic

/-- Comparing two levels that say something finds a bound value where a closed one is required, or
the other way round. -/
theorem wellShaped_compareWith {r actual : Level} (hr : r ≠ .inherit) (ha : actual ≠ .inherit)
    {span : Span} {d : Diagnostic} (hd : (r.compareWith actual).diagnostic? r span = some d) :
    d.WellShaped := by
  cases r with
  | inherit => exact absurd rfl hr
  | bound =>
    cases actual with
    | inherit => exact absurd rfl ha
    | bound => cases hd
    | closed => cases hd; exact Diagnostic.wellShaped_smartCast span
  | closed =>
    cases actual with
    | inherit => exact absurd rfl ha
    | bound => cases hd; exact Diagnostic.wellShaped_levelMismatch span
    | closed => cases hd

/-- What a judgement finds is well shaped, as members are read through known receivers. -/
theorem wellShaped_judge {r : Level} (hr : r ≠ .inherit) {l : ValueLevel}
    (hl : l ≠ .inherited .inherit) {site : Site} {span : Span} {d : Diagnostic}
    (hd : (judge r l site).diagnostic? r span = some d) : d.WellShaped := by
  unfold judge at hd
  rw [if_neg hr] at hd
  split at hd
  · cases hd
  · cases hd
    exact Diagnostic.wellShaped_uncheckedInference hr span
  · cases hd
  · exact wellShaped_compareWith hr (by decide) hd
  · next l hstrict hdecl =>
    refine wellShaped_compareWith hr ?_ hd
    rintro rfl
    cases site with
    | strict => exact hdecl rfl rfl
    | declaration => exact hstrict rfl rfl
  · next receiver => exact wellShaped_compareWith hr (fun e => hl (e ▸ rfl)) hd

/-- Members are read through receivers of known level, and findings are well shaped. -/
def Discipline.receivers : Discipline where
  binding _ := True
  level l := l ≠ .inherited .inherit
  finding := Diagnostic.WellShaped
  inherits := trivial
  null := nofun
  ofLevel _ := nofun
  unchecked _ := nofun
  meet {a b} ha hb := by
    rcases a with _ | _ | ⟨_ | _ | _⟩ | ⟨_ | _ | _⟩ <;>
      rcases b with _ | _ | ⟨_ | _ | _⟩ | ⟨_ | _ | _⟩ <;>
      first | exact absurd rfl ha | exact absurd rfl hb | exact nofun
  inheritedFrom {l} hl := by
    rcases l with _ | _ | ⟨_ | _ | _⟩ | _ <;> first | exact hl | exact nofun
  matched {l} _ := by cases l <;> exact nofun
  conflict := Diagnostic.wellShaped_annotationConflict
  judged _ hr hl hd := wellShaped_judge hr hl hd
  redundant span _ hr := Diagnostic.wellShaped_redundantMarker hr span
  narrowing {r l actual} span _ hr hl hactual hlt := by
    have hne : actual ≠ .inherit := by
      rintro rfl
      rcases l with _ | _ | ⟨_ | _ | _⟩ | _ <;> cases hactual
      exact hl rfl
    cases r with
    | inherit => exact absurd rfl hr
    | bound => cases actual <;> first | exact absurd rfl hne | exact absurd hlt (by decide)
    | closed =>
      cases actual with
      | inherit => exact absurd rfl hne
      | bound => exact Diagnostic.wellShaped_caseArmNarrowing span
      | closed => exact absurd hlt (by decide)

/-- This discipline allows every declaration. -/
theorem Discipline.receivers_allows (names : Names) (ds : List Declaration) :
    receivers.Allows names ds :=
  fun _ _ _ _ => trivial

/-- What the analysis of a unit logs is well shaped. -/
theorem wellShaped_of_mem_checkLog {names : Names} {u : CompilationUnit} {d : Diagnostic}
    (hd : d ∈ Event.diagnostics (checkLog names u)) : d.WellShaped :=
  Discipline.checkLog_finds (Discipline.receivers_allows names u.declarations).admits d hd

/-- **Every finding about a unit is well shaped**: it has the severity of its kind, and names
levels that say something, in the way its kind asks for. -/
theorem check_wellShaped (config : Config) (u : CompilationUnit) :
    ∀ d ∈ (check config u).diagnostics, d.WellShaped := by
  intro d hd
  have hmem := (check_diagnostics_perm config u).mem_iff.1 hd
  exact wellShaped_of_mem_checkLog (List.mem_filter.1 hmem).1

/-! ## A unit with findings of every kind -/

/-- The span of a node that stands at one place. -/
def Span.spot (n : UInt64) : Span :=
  { start := n, stop := n }

/-- A method that takes a bound term, one whose result is not inferred, and one that returns a
closed term: its body passes a closed constant to the first, repeats the marker of a parameter,
narrows it, and returns first an unverified and then a bound value. -/
def sampler : CompilationUnit :=
  let marker (name : String) (n : UInt64) : Annot := { name, span := .spot n }
  let param (id : UInt32) (annots : List Annot) : Param :=
    { id := ⟨id⟩, name := "x", type := "Term", annots, isVarargs := false, span := .spot 0 }
  let method (id : UInt32) (annots : List Annot) (params : List Param) (body : Option Block) :
      Method :=
    { id := ⟨id⟩, name := "m", isStatic := true, annots, returnType := some "Term", params, body,
      span := .spot 0 }
  { name := "sampler"
    types := [
      { id := ⟨0⟩, name := "Leaf", annots := [marker "Closed" 1], shape := .singleton,
        supertypes := ["Term"], methods := [], span := .spot 1 }]
    methods := [
      method 10 [] [param 11 [marker "Bound" 10]] none,
      method 20 [marker "NoInherit" 20] [] none,
      method 30 [marker "Closed" 30]
        [param 31 [marker "Bound" 31], param 32 [marker "Bound" 32, marker "Closed" 33]]
        (some (.mk [
          .expr (.call none ⟨10⟩ [.singleton ⟨0⟩ (.spot 41)] (.spot 40)) (.spot 40),
          .declare
            { id := ⟨42⟩, name := "y", type := none, annots := [marker "Bound" 42],
              span := .spot 42 }
            (some (.var ⟨31⟩ (.spot 43))) (.spot 42),
          .expr (.instanceOf (.var ⟨31⟩ (.spot 44)) (.typeTest ⟨0⟩ none (.spot 45)) (.spot 44))
            (.spot 44),
          .ret (some (.call none ⟨20⟩ [] (.spot 46))) (.spot 46),
          .ret (some (.var ⟨31⟩ (.spot 47))) (.spot 47)] (.spot 40)))] }

example : DiagnosticKind.all.map (check {} sampler).count = [1, 1, 1, 1, 1, 1] := by cbv

theorem check_wellShaped_sampler :
    .levelMismatch (.spot 47) .closed .bound ∈ (check {} sampler).diagnostics ∧
      (Diagnostic.levelMismatch (.spot 47) .closed .bound).WellShaped := by
  have hmem : .levelMismatch (.spot 47) .closed .bound ∈
      (check {} sampler).diagnostics := by
    apply (check_diagnostics_perm {} sampler).mem_iff.2
    decide
  exact ⟨hmem, check_wellShaped {} sampler _ hmem⟩

end Closedness
