import Closedness.Proofs.Selection

/-!
# From the log of a run to its report

The report of a unit is a view of the log of its analysis. Its diagnostics are those of the log
that the options keep, each as often as it was logged (`check_diagnostics_perm`), and its
unreliable declarations are those the log marks, once each and by number (`mem_check_unreliable`,
`pairwise_check_unreliable`). So a fact about a report reduces to a fact about a log.
-/

namespace Closedness

/-! ## Collecting a log -/

namespace Findings

theorem diagnostics_add (f : Findings) (e : Event) :
    (f.add e).diagnostics = f.diagnostics ++ e.diagnostic?.toList := by
  cases e with
  | found d => rfl
  | unreliable id =>
    simp only [add, markUnreliable, Event.diagnostic?, Option.toList_none, List.append_nil]
    split <;> rfl
  | noted n => simp [add, Event.diagnostic?]

theorem mem_unreliable_add (f : Findings) (e : Event) (id : DeclId) :
    id ∈ (f.add e).unreliable ↔ id ∈ f.unreliable ∨ e = .unreliable id := by
  cases e with
  | found d => simp [add, report]
  | unreliable other =>
    simp only [add, markUnreliable, Event.unreliable.injEq]
    split
    · next hmem =>
      refine ⟨Or.inl, ?_⟩
      rintro (h | rfl)
      · exact h
      · exact hmem
    · simp [eq_comm]
  | noted n => simp [add]

theorem nodup_unreliable_add {f : Findings} (h : f.unreliable.Nodup) (e : Event) :
    (f.add e).unreliable.Nodup := by
  cases e with
  | found d => exact h
  | unreliable id =>
    simp only [add, markUnreliable]
    split
    · exact h
    · next hnew =>
      rw [List.nodup_append]
      refine ⟨h, List.pairwise_singleton _ id, ?_⟩
      rintro a ha b hb rfl
      rw [List.mem_singleton] at hb
      exact hnew (hb ▸ ha)
  | noted n => exact h

/-- Adding a log appends its diagnostics in order. -/
theorem diagnostics_foldl_add (log : List Event) (f : Findings) :
    (log.foldl add f).diagnostics = f.diagnostics ++ Event.diagnostics log := by
  induction log generalizing f with
  | nil => simp [Event.diagnostics]
  | cons e rest ih =>
    rw [List.foldl_cons, ih, diagnostics_add]
    cases h : e.diagnostic? <;> simp [Event.diagnostics, h]

/-- Collecting a log keeps its diagnostics, in order. -/
theorem diagnostics_ofLog (log : List Event) : (ofLog log).diagnostics = Event.diagnostics log :=
  diagnostics_foldl_add log {}

/-- What is unreliable after a log was so before, or the log says so. -/
theorem mem_unreliable_foldl_add (log : List Event) (f : Findings) (id : DeclId) :
    id ∈ (log.foldl add f).unreliable ↔ id ∈ f.unreliable ∨ .unreliable id ∈ log := by
  induction log generalizing f with
  | nil => simp
  | cons e rest ih =>
    rw [List.foldl_cons, ih, mem_unreliable_add, List.mem_cons, or_assoc]
    simp only [eq_comm]

/-- Collecting a log takes up exactly the declarations it marks. -/
theorem mem_unreliable_ofLog (log : List Event) (id : DeclId) :
    id ∈ (ofLog log).unreliable ↔ .unreliable id ∈ log := by
  unfold ofLog
  rw [mem_unreliable_foldl_add]
  simp

/-- A declaration is listed as unreliable once, however often a log says so. -/
theorem nodup_unreliable_foldl_add (log : List Event) {f : Findings} (h : f.unreliable.Nodup) :
    (log.foldl add f).unreliable.Nodup := by
  induction log generalizing f with
  | nil => exact h
  | cons e rest ih => exact ih (nodup_unreliable_add h e)

/-- Collecting a log takes up each declaration once. -/
theorem nodup_unreliable_ofLog (log : List Event) : (ofLog log).unreliable.Nodup :=
  nodup_unreliable_foldl_add log List.nodup_nil

/-! ## Source order -/

/-- Sorting loses no diagnostic and adds none. -/
theorem sortDiagnostics_perm (ds : List Diagnostic) : (sortDiagnostics ds).Perm ds :=
  List.mergeSort_perm ds _

theorem mem_sortIds {ids : List DeclId} {id : DeclId} : id ∈ sortIds ids ↔ id ∈ ids :=
  List.mem_mergeSort

/-- Distinct declarations come out in strictly ascending order. -/
theorem pairwise_sortIds {ids : List DeclId} (h : ids.Nodup) :
    (sortIds ids).Pairwise fun a b => a.val < b.val := by
  have hle : (sortIds ids).Pairwise fun a b => decide (a.val ≤ b.val) = true := by
    apply List.pairwise_mergeSort
    · intro a b c hab hbc
      exact decide_eq_true (UInt32.le_trans (of_decide_eq_true hab) (of_decide_eq_true hbc))
    · intro a b
      simpa only [Bool.or_eq_true, decide_eq_true_eq] using UInt32.le_total a.val b.val
  have hne : (sortIds ids).Nodup := (List.mergeSort_perm ids _).nodup_iff.mpr h
  refine (List.Pairwise.and hle hne).imp ?_
  rintro ⟨a⟩ ⟨b⟩ ⟨hab, hneq⟩
  exact UInt32.lt_of_le_of_ne (of_decide_eq_true hab) fun e => hneq (congrArg DeclId.mk e)

/-- A strictly ascending list is determined by its members. -/
theorem eq_of_mem_iff {ids ids' : List DeclId} (h : ids.Pairwise fun a b => a.val < b.val)
    (h' : ids'.Pairwise fun a b => a.val < b.val) (hmem : ∀ id, id ∈ ids ↔ id ∈ ids') :
    ids = ids' := by
  have hnodup : ∀ {ids : List DeclId}, (ids.Pairwise fun a b => a.val < b.val) → ids.Nodup := by
    intro ids hids
    refine hids.imp ?_
    rintro a b hlt rfl
    exact UInt32.lt_irrefl _ hlt
  refine List.Perm.eq_of_pairwise (fun a b _ _ hab hba => ?_) h h' ?_
  · exact absurd (UInt32.lt_trans hab hba) (UInt32.lt_irrefl _)
  · exact (List.perm_ext_iff_of_nodup (hnodup h) (hnodup h')).2 hmem

end Findings

/-! ## The report of a unit -/

/-- Leaving out events changes the diagnostics of a log by leaving out theirs. -/
theorem Event.diagnostics_filter_keeps (o : Options) (log : List Event) :
    diagnostics (log.filter o.keeps) = (diagnostics log).filter fun d => o.admits d.kind := by
  unfold diagnostics
  induction log with
  | nil => rfl
  | cons e rest ih =>
    cases e with
    | found d =>
      by_cases h : o.admits d.kind = true
      · rw [List.filter_cons_of_pos (by simpa [Options.keeps] using h)]
        simp only [List.filterMap_cons, diagnostic?]
        rw [List.filter_cons_of_pos (by simpa using h), ih]
      · rw [List.filter_cons_of_neg (by simpa [Options.keeps] using h), ih]
        simp only [List.filterMap_cons, diagnostic?]
        rw [List.filter_cons_of_neg (by simpa using h)]
    | unreliable id => rw [List.filter_cons_of_pos rfl]; exact ih
    | noted n => rw [List.filter_cons_of_pos rfl]; exact ih

/-- The report has the diagnostics of the run, in source order. -/
theorem check_diagnostics_eq_sort (config : Config) (u : CompilationUnit) :
    (check config u).diagnostics
      = Findings.sortDiagnostics (Event.diagnostics (runLog config u)) := by
  rw [← Findings.diagnostics_ofLog]
  rfl

/-- The report has the diagnostics of the log that its options admit, in source order. -/
theorem check_diagnostics (config : Config) (u : CompilationUnit) :
    (check config u).diagnostics =
      Findings.sortDiagnostics ((Event.diagnostics (checkLog config.names u)).filter
        fun d => config.options.admits d.kind) := by
  rw [← Event.diagnostics_filter_keeps, ← runLog_eq_filter, check_diagnostics_eq_sort]

/-- The report has the diagnostics of the log that its options admit, each as often as it was
logged. -/
theorem check_diagnostics_perm (config : Config) (u : CompilationUnit) :
    (check config u).diagnostics.Perm
      ((Event.diagnostics (checkLog config.names u)).filter
        fun d => config.options.admits d.kind) := by
  rw [check_diagnostics]
  exact Findings.sortDiagnostics_perm _

/-- Under any options, the report has nothing that is not logged when all findings are asked for. -/
theorem mem_checkLog_of_mem_check {config : Config} {u : CompilationUnit} {d : Diagnostic}
    (h : d ∈ (check config u).diagnostics) : d ∈ Event.diagnostics (checkLog config.names u) :=
  (List.mem_filter.1 ((check_diagnostics_perm config u).mem_iff.1 h)).1

/-- The report lists the declarations that the log marks, under any options. -/
theorem mem_check_unreliable (config : Config) (u : CompilationUnit) (id : DeclId) :
    id ∈ (check config u).unreliable ↔ .unreliable id ∈ checkLog config.names u := by
  show id ∈ Findings.sortIds _ ↔ _
  rw [Findings.mem_sortIds, Findings.mem_unreliable_ofLog, runLog_eq_filter, List.mem_filter]
  exact ⟨And.left, fun h => ⟨h, rfl⟩⟩

/-- The report lists declarations once each, by number. -/
theorem pairwise_check_unreliable (config : Config) (u : CompilationUnit) :
    (check config u).unreliable.Pairwise fun a b => a.val < b.val :=
  Findings.pairwise_sortIds (Findings.nodup_unreliable_ofLog _)

/-- The unreliable declarations of two reports are the same if the logs mark the same ones. -/
theorem check_unreliable_congr {config : Config} {u u' : CompilationUnit}
    (h : ∀ id, .unreliable id ∈ checkLog config.names u ↔
      .unreliable id ∈ checkLog config.names u') :
    (check config u).unreliable = (check config u').unreliable := by
  refine Findings.eq_of_mem_iff (pairwise_check_unreliable config u)
    (pairwise_check_unreliable config u') fun id => ?_
  rw [mem_check_unreliable, mem_check_unreliable, h]

/-- Logs that differ in their order give the same report, up to the order of diagnostics. -/
theorem check_of_perm {config : Config} {u u' : CompilationUnit}
    (h : (checkLog config.names u).Perm (checkLog config.names u')) :
    (check config u).diagnostics.Perm (check config u').diagnostics ∧
      (check config u).unreliable = (check config u').unreliable := by
  refine ⟨?_, check_unreliable_congr fun id => h.mem_iff⟩
  have hkept := (h.filterMap Event.diagnostic?).filter fun d => config.options.admits d.kind
  refine (check_diagnostics_perm config u).trans (hkept.trans ?_)
  exact (check_diagnostics_perm config u').symm

end Closedness
