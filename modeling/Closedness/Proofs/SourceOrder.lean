import Closedness.Proofs.Options

/-!
# Findings in source order

`Findings.InSourceOrder log result` says what the findings of a log are in source order: the
diagnostics that were reported, as often as they were reported, by start offset and at each offset
in the order they were reported in, and the declarations that were marked, in ascending order
without repetition. There is exactly one such result for each log, and `Findings.finish` gives it
(`finish_eq_iff`): a list sorted by offset is determined by what it has at each offset
(`eq_of_atStart`).
-/

namespace Closedness

/-! ## Offset by offset -/

namespace Diagnostic

/-- The diagnostics at one start offset, in order. -/
def atStart (start : UInt64) (ds : List Diagnostic) : List Diagnostic :=
  ds.filter fun d => d.span.start = start

theorem mem_atStart {start : UInt64} {ds : List Diagnostic} {d : Diagnostic} :
    d ∈ atStart start ds ↔ d ∈ ds ∧ d.span.start = start := by
  simp [atStart, List.mem_filter]

theorem atStart_cons_self (d : Diagnostic) (ds : List Diagnostic) :
    atStart d.span.start (d :: ds) = d :: atStart d.span.start ds :=
  List.filter_cons_of_pos (by simp)

theorem atStart_cons_of_ne {d : Diagnostic} {start : UInt64} (h : d.span.start ≠ start)
    (ds : List Diagnostic) : atStart start (d :: ds) = atStart start ds :=
  List.filter_cons_of_neg (by simpa using h)

/-- No diagnostic starts before one that comes earlier in the list. -/
def Ascending (ds : List Diagnostic) : Prop :=
  ds.Pairwise fun a b => a.span.start ≤ b.span.start

/-- No diagnostic starts before the first. -/
theorem Ascending.head_le {d e : Diagnostic} {ds : List Diagnostic} (h : Ascending (d :: ds))
    (he : e ∈ d :: ds) : d.span.start ≤ e.span.start := by
  rcases List.mem_cons.1 he with rfl | he
  · exact UInt64.le_refl _
  · exact (List.pairwise_cons.1 h).1 e he

/-- Lists that have the same diagnostics at each offset have the same diagnostics. -/
theorem mem_iff_of_atStart {ds ds' : List Diagnostic}
    (h : ∀ start, atStart start ds = atStart start ds') (d : Diagnostic) : d ∈ ds ↔ d ∈ ds' := by
  have hd : d ∈ atStart d.span.start ds ↔ d ∈ atStart d.span.start ds' := by rw [h]
  simpa only [mem_atStart, and_true] using hd

/-- An ascending list is determined by what it has at each offset. -/
theorem eq_of_atStart {ds ds' : List Diagnostic} (hasc : Ascending ds) (hasc' : Ascending ds')
    (h : ∀ start, atStart start ds = atStart start ds') : ds = ds' := by
  induction ds generalizing ds' with
  | nil =>
    refine (List.eq_nil_iff_forall_not_mem.2 fun d hd => ?_).symm
    cases (mem_iff_of_atStart h d).2 hd
  | cons d rest ih =>
    cases ds' with
    | nil => cases (mem_iff_of_atStart h d).1 List.mem_cons_self
    | cons d' rest' =>
      -- each head starts no later than any diagnostic of its list, the other head among them
      have hle := hasc.head_le ((mem_iff_of_atStart h d').2 List.mem_cons_self)
      have hge := hasc'.head_le ((mem_iff_of_atStart h d).1 List.mem_cons_self)
      have hstart : d.span.start = d'.span.start := UInt64.le_antisymm hle hge
      have hhead := h d.span.start
      rw [atStart_cons_self, hstart, atStart_cons_self] at hhead
      obtain ⟨rfl, -⟩ := List.cons.inj hhead
      refine congrArg (d :: ·) (ih (List.pairwise_cons.1 hasc).2 (List.pairwise_cons.1 hasc').2 ?_)
      intro start
      by_cases hd : d.span.start = start
      · subst hd
        have hrest := h d.span.start
        rw [atStart_cons_self, atStart_cons_self] at hrest
        exact (List.cons.inj hrest).2
      · simpa only [atStart_cons_of_ne hd] using h start

end Diagnostic

/-! ## What is handed out -/

namespace Findings

open Diagnostic

theorem ascending_sortDiagnostics (ds : List Diagnostic) : Ascending (sortDiagnostics ds) :=
  (List.pairwise_mergeSort start_le_trans start_le_total ds).imp of_decide_eq_true

/-- Sorting keeps the diagnostics at each offset, in order. -/
theorem atStart_sortDiagnostics (start : UInt64) (ds : List Diagnostic) :
    atStart start (sortDiagnostics ds) = atStart start ds := by
  unfold atStart
  rw [← sortDiagnostics_filter]
  refine List.mergeSort_of_pairwise (List.pairwise_of_forall_mem_list fun a ha b hb => ?_)
  have hastart := (mem_atStart.1 ha).2
  have hbstart := (mem_atStart.1 hb).2
  rw [hastart, hbstart]
  exact decide_eq_true (UInt64.le_refl start)

/-- The diagnostics and the declarations of a result are those of a log, in source order. -/
structure InSourceOrder (log : List Event) (result : List Diagnostic × List DeclId) : Prop where
  /-- What was reported, as often as it was reported. -/
  perm : result.1.Perm (Event.diagnostics log)
  ascending : Ascending result.1
  /-- At each offset in the order it was reported in. -/
  stable : ∀ start, atStart start result.1 = atStart start (Event.diagnostics log)
  strictlyAscending : result.2.Pairwise fun a b => a.val < b.val
  marked : ∀ id, id ∈ result.2 ↔ .unreliable id ∈ log

/-- Finishing a log gives its findings in source order. -/
theorem inSourceOrder_finish (log : List Event) : InSourceOrder log (ofLog log).finish where
  perm := by
    rw [← diagnostics_ofLog]
    exact sortDiagnostics_perm _
  ascending := ascending_sortDiagnostics _
  stable start := by
    rw [← diagnostics_ofLog]
    exact atStart_sortDiagnostics start _
  strictlyAscending := pairwise_sortIds (nodup_unreliable_ofLog log)
  marked id := mem_sortIds.trans (mem_unreliable_ofLog log id)

/-- There is only one source order. -/
theorem InSourceOrder.unique {log : List Event} {result result' : List Diagnostic × List DeclId}
    (h : InSourceOrder log result) (h' : InSourceOrder log result') : result = result' := by
  have hdiagnostics : result.1 = result'.1 :=
    eq_of_atStart h.ascending h'.ascending fun start =>
      (h.stable start).trans (h'.stable start).symm
  have hids : result.2 = result'.2 :=
    eq_of_mem_iff h.strictlyAscending h'.strictlyAscending fun id =>
      (h.marked id).trans (h'.marked id).symm
  exact Prod.ext hdiagnostics hids

/-- **Findings are handed out in source order.** Whatever is reported and marked, and in whatever
sequence, the result is the one that has what was reported, each finding as often as it was, by
start offset and at each offset in the order of the reports, and beside it exactly the declarations
that were marked, in strictly ascending order. -/
theorem finish_eq_iff (log : List Event) (result : List Diagnostic × List DeclId) :
    (ofLog log).finish = result ↔ InSourceOrder log result := by
  constructor
  · rintro rfl
    exact inSourceOrder_finish log
  · exact fun h => (inSourceOrder_finish log).unique h

end Findings

end Closedness
