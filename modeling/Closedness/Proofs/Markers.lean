import Closedness.Proofs.Shape

/-!
# Levels stem from markers

No level comes out of nothing: a value that is bound, closed or unverified is so because some
declaration of the unit asks for it, and so is every requirement that a value is judged by. Only a
value whose receiver is unknown counts as bound without anyone asking, and only where it is judged
(`Level.unresolvedInherit`). `Discipline.sourced` tracks where levels come from; together with the
shape of findings it says which findings a unit can have that lacks some of the markers.
-/

namespace Closedness

/-- The level is one of those asked for, unless it says nothing. -/
def ValueLevel.Sourced (asked : Binding → Prop) : ValueLevel → Prop
  | .null => True
  | .unchecked => asked .noInherit
  | .level l | .inherited l => l ≠ .inherit → asked (.level l)

/-- What the finding names is asked for. A bound value is exempt: an unknown one counts as such. -/
structure Diagnostic.Sourced (asked : Binding → Prop) (d : Diagnostic) : Prop where
  required : ∀ {r}, d.required = some r → asked (.level r)
  actual : d.actual = some .closed → asked (.level .closed)
  unchecked : d.kind = .uncheckedInference → asked .noInherit

section Sourced

variable {asked : Binding → Prop}

/-- A comparison finds something only about levels that have been asked for. -/
theorem sourced_compareWith {r actual : Level} (hr : asked (.level r))
    (ha : actual = .closed → asked (.level .closed)) {span : Span} {d : Diagnostic}
    (hd : (r.compareWith actual).diagnostic? r span = some d) : d.Sourced asked := by
  unfold Level.compareWith at hd
  split at hd
  · cases hd
    exact ⟨fun e => Option.some.inj e ▸ hr, fun e => ha (Option.some.inj e), nofun⟩
  · split at hd
    · cases hd
      exact ⟨fun e => Option.some.inj e ▸ hr, fun e => ha (Option.some.inj e), nofun⟩
    · cases hd

/-- A judgement of a sourced level against an asked requirement finds a sourced diagnostic. -/
theorem sourced_judge {r : Level} (hne : r ≠ .inherit) (hr : asked (.level r)) {l : ValueLevel}
    (hl : l.Sourced asked) {site : Site} {span : Span} {d : Diagnostic}
    (hd : (judge r l site).diagnostic? r span = some d) : d.Sourced asked := by
  unfold judge at hd
  rw [if_neg hne] at hd
  split at hd
  · cases hd
  · cases hd
    exact ⟨fun e => Option.some.inj e ▸ hr, nofun, fun _ => hl⟩
  · cases hd
  · exact sourced_compareWith hr (fun e => absurd e (by decide)) hd
  · exact sourced_compareWith hr (fun e => e ▸ hl (by rw [e]; decide)) hd
  · exact sourced_compareWith hr (fun e => e ▸ hl (by rw [show _ = Level.closed from e]; decide)) hd

end Sourced

/-- Levels and requirements are among those asked for. -/
def Discipline.sourced (asked : Binding → Prop) : Discipline where
  binding b := b ≠ .level .inherit → asked b
  level := ValueLevel.Sourced asked
  finding := Diagnostic.Sourced asked
  inherits h := absurd rfl h
  null := trivial
  ofLevel {l} hl hne := hl fun e => hne (Binding.level.inj e)
  unchecked h := h nofun
  meet {a b} ha hb := by
    rcases a with _ | _ | ⟨_ | _ | _⟩ | ⟨_ | _ | _⟩ <;>
      rcases b with _ | _ | ⟨_ | _ | _⟩ | ⟨_ | _ | _⟩ <;>
      first | exact ha | exact hb
  inheritedFrom {l} hl := by
    rcases l with _ | _ | ⟨_ | _ | _⟩ | _ <;> first | exact hl | exact fun h => absurd rfl h
  matched {l} hl := by
    cases l <;> first | exact hl | exact fun h => absurd rfl h
  conflict _ _ _ := ⟨nofun, nofun, nofun⟩
  judged hb hne hl hd := sourced_judge hne (hb fun e => hne (Binding.level.inj e)) hl hd
  redundant {r} span hb hne :=
    have hr : asked (.level r) := hb fun e => hne (Binding.level.inj e)
    ⟨fun e => Option.some.inj e ▸ hr, fun e => Option.some.inj e ▸ hr, nofun⟩
  narrowing {r l actual} span hb hne hl hactual hlt := by
    refine ⟨fun e => Option.some.inj e ▸ hb fun e => hne (Binding.level.inj e), ?_, nofun⟩
    -- a narrowed value is weaker than the variant, so it is not closed
    rintro ⟨⟩
    cases r <;> exact absurd hlt (by decide)

/-- Some declaration of the unit asks for the binding; only a type is not heeded when it asks for
nothing to be inferred. -/
def CompilationUnit.Asks (u : CompilationUnit) (names : Names) (b : Binding) : Prop :=
  ∃ d ∈ u.declarations, (names.resolve d.annots).binding = some b ∧
    (b = .noInherit → d.kind.isType = false)

/-- The markers in a unit stem from the markers in it. -/
theorem Discipline.sourced_admits (names : Names) (u : CompilationUnit) :
    (sourced (u.Asks names)).Admits names u.declarations := by
  intro d hd b hb
  by_cases htype : d.kind.isType = true ∧ b = .noInherit
  · exact Or.inr htype
  · refine Or.inl fun _ => ⟨d, hd, hb, fun e => ?_⟩
    simpa [e] using htype

/-- What a finding about a unit names, its declarations ask for. -/
theorem check_sourced {config : Config} {u : CompilationUnit} {d : Diagnostic}
    (hd : d ∈ (check config u).diagnostics) : d.Sourced (u.Asks config.names) :=
  Discipline.checkLog_finds (Discipline.sourced_admits config.names u) d
    (mem_checkLog_of_mem_check hd)

/-- **Findings stem from markers**: without a closed declaration nothing is too weak, cast or
narrowed; without a declaration, types apart, that asks for nothing to be inferred nothing is
unchecked; and without bound and closed declarations only markers can contradict each other. -/
theorem findings_stem_from_markers (config : Config) (u : CompilationUnit) :
    ((∀ decl ∈ u.declarations,
        (config.names.resolve decl.annots).binding ≠ some (.level .closed)) →
      ∀ d ∈ (check config u).diagnostics,
        d.kind ≠ .levelMismatch ∧ d.kind ≠ .smartCast ∧ d.kind ≠ .caseArmNarrowing) ∧
    ((∀ decl ∈ u.declarations, decl.kind.isType = false →
        (config.names.resolve decl.annots).binding ≠ some .noInherit) →
      ∀ d ∈ (check config u).diagnostics, d.kind ≠ .uncheckedInference) ∧
    ((∀ decl ∈ u.declarations,
        (config.names.resolve decl.annots).binding ≠ some (.level .bound) ∧
        (config.names.resolve decl.annots).binding ≠ some (.level .closed)) →
      ∀ d ∈ (check config u).diagnostics, d.kind = .annotationConflict) := by
  refine ⟨fun hclosed d hd => ?_, fun hunchecked d hd hkind => ?_, fun hmarkers d hd => ?_⟩
  · have hasks : ¬ u.Asks config.names (.level .closed) := by
      rintro ⟨decl, hdecl, hb, -⟩
      exact hclosed decl hdecl hb
    have hlevels := (wellShaped_of_mem_checkLog (mem_checkLog_of_mem_check hd)).levels
    refine ⟨fun hkind => ?_, fun hkind => ?_, fun hkind => ?_⟩
    · rw [hkind] at hlevels
      exact hasks ((check_sourced hd).required hlevels.1)
    · rw [hkind] at hlevels
      exact hasks ((check_sourced hd).actual hlevels.2)
    · rw [hkind] at hlevels
      exact hasks ((check_sourced hd).required hlevels.1)
  · obtain ⟨decl, hdecl, hb, htype⟩ := (check_sourced hd).unchecked hkind
    exact hunchecked decl hdecl (htype rfl) hb
  · -- a finding of any other kind names a requirement, which is bound or closed
    have hrequired : ∀ {r}, d.required = some r → r = .inherit := by
      intro r hr
      obtain ⟨decl, hdecl, hb, -⟩ := (check_sourced hd).required hr
      cases r with
      | inherit => rfl
      | bound => exact absurd hb (hmarkers decl hdecl).1
      | closed => exact absurd hb (hmarkers decl hdecl).2
    have hlevels := (wellShaped_of_mem_checkLog (mem_checkLog_of_mem_check hd)).levels
    cases hkind : d.kind with
    | annotationConflict => rfl
    | levelMismatch | caseArmNarrowing | smartCast =>
      rw [hkind] at hlevels
      exact nomatch hrequired hlevels.1
    | redundantMarker =>
      rw [hkind] at hlevels
      obtain h | h := hlevels.2 <;> exact nomatch hrequired h
    | uncheckedInference =>
      rw [hkind] at hlevels
      obtain h | h := hlevels.1 <;> exact nomatch hrequired h

/-- A type whose markers contradict each other, and a method that returns a value of it. -/
def contradictory : CompilationUnit :=
  { name := "contradictory"
    types := [
      { id := ⟨0⟩, name := "Term", shape := .interface, supertypes := [], methods := []
        annots := [{ name := "Inherit", span := .spot 1 }, { name := "NoInherit", span := .spot 2 }]
        span := .spot 0 }]
    methods := [
      { id := ⟨1⟩, name := "m", isStatic := true, annots := [], returnType := some "Term"
        params := [
          { id := ⟨2⟩, name := "x", type := "Term", annots := [], isVarargs := false
            span := .spot 3 }]
        body := some (.mk [.ret (some (.var ⟨2⟩ (.spot 5))) (.spot 4)] (.spot 4))
        span := .spot 3 }] }

/-- The conflict is all that is found: its winner stands on a type and is not heeded. -/
theorem findings_stem_from_markers_contradictory :
    (∃ d ∈ (check {} contradictory).diagnostics, d.kind = .annotationConflict) ∧
    (∀ d ∈ (check {} contradictory).diagnostics,
      d.kind ≠ .levelMismatch ∧ d.kind ≠ .smartCast ∧ d.kind ≠ .caseArmNarrowing) ∧
    (∀ d ∈ (check {} contradictory).diagnostics, d.kind ≠ .uncheckedInference) ∧
    (∀ d ∈ (check {} contradictory).diagnostics, d.kind = .annotationConflict) := by
  have hmarkers := findings_stem_from_markers {} contradictory
  refine ⟨⟨.annotationConflict (.spot 1) "NoInherit" "Inherit", ?_, rfl⟩, hmarkers.1 (by decide),
    hmarkers.2.1 (by decide), hmarkers.2.2 (by decide)⟩
  apply (check_diagnostics_perm {} contradictory).mem_iff.2
  decide

end Closedness
