import Closedness.Proofs.Findings
import Mathlib.Data.List.TakeDrop

/-!
# Options only leave findings out

A run under some options logs what a run under all of them logs, less the findings of the kinds that
are switched off (`runLog_eq_filter`). Putting diagnostics in source order is a stable sort, so it
does not matter whether some of them are left out before or after (`sortDiagnostics_filter`): the
report under some options is the full report without the kinds that are switched off
(`options_filter_report`).
-/

namespace Closedness

/-! ## Sorting and leaving out -/

section Sorting

variable {α : Type}

/-- Where the elements of a list that have a property come first, they are split off. -/
theorem span_append {q : α → Bool} {first rest : List α} (hfirst : ∀ b ∈ first, q b = true)
    (hrest : ∀ b ∈ rest, q b = false) : (first ++ rest).span q = (first, rest) := by
  have hnone : rest.takeWhile q = [] ∧ rest.dropWhile q = rest := by
    cases rest with
    | nil => exact ⟨rfl, rfl⟩
    | cons b rest =>
      have hb : q b = false := hrest b List.mem_cons_self
      simp [hb]
  rw [List.span_eq_takeWhile_dropWhile, List.takeWhile_append_of_pos hfirst,
    List.dropWhile_append_of_pos hfirst, hnone.1, hnone.2, List.append_nil]

variable {le : α → α → Bool} (htrans : ∀ a b c, le a b = true → le b c = true → le a c = true)
  (htotal : ∀ a b, (le a b || le b a) = true)
include htrans htotal

/-- Sorting puts an element before those it is not behind, and those are the last ones. -/
theorem mergeSort_cons_split (a : α) (l : List α) : ∃ before after,
    (a :: l).mergeSort le = before ++ a :: after ∧ l.mergeSort le = before ++ after ∧
      (∀ b ∈ before, (!le a b) = true) ∧ ∀ b ∈ after, (!le a b) = false := by
  obtain ⟨before, after, hcons, htail, hbefore⟩ := List.mergeSort_cons htrans htotal a l
  refine ⟨before, after, hcons, htail, hbefore, fun b hb => ?_⟩
  have hsorted := List.pairwise_mergeSort htrans htotal (a :: l)
  rw [hcons] at hsorted
  have hab : le a b = true := (List.pairwise_cons.1 (List.pairwise_append.1 hsorted).2.1).1 b hb
  rw [hab]
  rfl

/-- Elements can be left out before or after a list is sorted. -/
theorem filter_mergeSort (p : α → Bool) (l : List α) :
    (l.mergeSort le).filter p = (l.filter p).mergeSort le := by
  induction l with
  | nil => rw [List.mergeSort_nil, List.filter_nil, List.mergeSort_nil]
  | cons a rest ih =>
    obtain ⟨before, after, hcons, htail, hbefore, hafter⟩ :=
      mergeSort_cons_split htrans htotal a rest
    rw [htail, List.filter_append] at ih
    rw [hcons, List.filter_append]
    by_cases ha : p a = true
    · rw [List.filter_cons_of_pos ha, List.filter_cons_of_pos ha]
      obtain ⟨before', after', hcons', htail', hbefore', hafter'⟩ :=
        mergeSort_cons_split htrans htotal a (rest.filter p)
      -- both sides split the sorted rest at the place of `a`
      have hsplit := span_append hbefore' hafter'
      rw [← htail', ← ih, span_append (fun b hb => hbefore b ((List.mem_filter.1 hb).1))
        fun b hb => hafter b ((List.mem_filter.1 hb).1)] at hsplit
      obtain ⟨hb, hafter⟩ := Prod.mk.inj hsplit
      rw [hcons', hb, hafter]
    · rw [List.filter_cons_of_neg ha, List.filter_cons_of_neg ha, ih]

end Sorting

theorem Diagnostic.start_le_trans (a b c : Diagnostic)
    (hab : decide (a.span.start ≤ b.span.start) = true)
    (hbc : decide (b.span.start ≤ c.span.start) = true) :
    decide (a.span.start ≤ c.span.start) = true :=
  decide_eq_true (UInt64.le_trans (of_decide_eq_true hab) (of_decide_eq_true hbc))

theorem Diagnostic.start_le_total (a b : Diagnostic) :
    (decide (a.span.start ≤ b.span.start) || decide (b.span.start ≤ a.span.start)) = true := by
  simpa only [Bool.or_eq_true, decide_eq_true_eq] using UInt64.le_total a.span.start b.span.start

/-- Diagnostics can be left out before or after they are put in source order. -/
theorem Findings.sortDiagnostics_filter (p : Diagnostic → Bool) (ds : List Diagnostic) :
    sortDiagnostics (ds.filter p) = (sortDiagnostics ds).filter p :=
  (filter_mergeSort Diagnostic.start_le_trans Diagnostic.start_le_total p ds).symm

/-! ## Reports -/

/-- The kinds of findings whose option is off. -/
def Options.switchedOff (o : Options) : List DiagnosticKind :=
  (if o.redundantMarkers then [] else [.redundantMarker])
    ++ (if o.caseArmNarrowing then [] else [.caseArmNarrowing])
    ++ (if o.smartCast then [] else [.smartCast])

/-- A kind is admitted unless it is switched off. -/
theorem Options.admits_eq (o : Options) (kind : DiagnosticKind) :
    o.admits kind = decide (kind ∉ o.switchedOff) := by
  obtain ⟨redundant, narrowing, cast⟩ := o
  cases kind <;> cases redundant <;> cases narrowing <;> cases cast <;> rfl

/-- Leaving findings out of a log does not change which declarations it marks. -/
theorem Findings.unreliable_ofRun (o : Options) (log : List Event) :
    (ofRun o log).unreliable = (ofLog log).unreliable := by
  have hfold : ∀ f g : Findings, f.unreliable = g.unreliable →
      ((log.filter o.keeps).foldl add f).unreliable = (log.foldl add g).unreliable := by
    induction log with
    | nil => exact fun f g h => h
    | cons e rest ih =>
      intro f g h
      -- only a finding can be left out, and a finding marks no declaration
      cases e with
      | found d =>
        by_cases hd : o.keeps (.found d)
        · rw [List.filter_cons_of_pos hd]
          exact ih _ _ h
        · rw [List.filter_cons_of_neg hd]
          exact ih _ _ h
      | unreliable id =>
        rw [List.filter_cons_of_pos rfl]
        refine ih _ _ ?_
        simp only [add, markUnreliable, h]
        split <;> simp [h]
      | noted n =>
        rw [List.filter_cons_of_pos rfl]
        exact ih _ _ h
  exact hfold {} {} rfl

/-- **Options only leave findings out.** The report of a unit under any options has the diagnostics
of the report under all of them, in the same order and without those of the kinds that are switched
off; the unit's name and the unreliable declarations are the same. -/
theorem options_filter_report (names : Names) (options : Options) (u : CompilationUnit) :
    let all : Options := { redundantMarkers := true, caseArmNarrowing := true, smartCast := true }
    (check { names, options } u).diagnostics =
        (check { names, options := all } u).diagnostics.filter
          (fun d => d.kind ∉ options.switchedOff) ∧
      (check { names, options } u).unit = (check { names, options := all } u).unit ∧
      (check { names, options } u).unreliable = (check { names, options := all } u).unreliable := by
  intro all
  have hall : ∀ d : Diagnostic, all.admits d.kind = true := by
    intro d
    cases d.kind <;> rfl
  refine ⟨?_, rfl, ?_⟩
  · have hkept : ∀ ds : List Diagnostic, ds.filter (fun d => all.admits d.kind) = ds := fun ds =>
      List.filter_eq_self.2 fun d _ => hall d
    rw [check_diagnostics, check_diagnostics, ← Findings.sortDiagnostics_filter, hkept]
    simp only [Options.admits_eq]
  · have hmarked : ∀ o : Options, (check { names, options := o } u).unreliable
        = Findings.sortIds (Findings.ofLog (checkLog names u)).unreliable := by
      intro o
      rw [← Findings.unreliable_ofRun o, Findings.ofRun, ← runLog_eq_filter { names, options := o }]
      rfl
    rw [hmarked, hmarked]

end Closedness
