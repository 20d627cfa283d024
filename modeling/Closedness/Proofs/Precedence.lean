import Closedness.Proofs.Shape
import Mathlib.Data.Finset.Card
import Mathlib.Data.List.Forall2
import Mathlib.Data.List.TakeWhile

/-!
# Which marker wins

Of the markers on a declaration the strongest one wins, at the last annotation that carries it, and
all others are overridden, each at the first annotation that carries it. The winner comes out of a
fold that takes the later of two annotations unless it is weaker (`Names.foldl_stronger`), and the
overridden ones are the distinct markers but the winner, in the order in which they first occur
(`Names.losers_first`).

So what a declaration asks for, which of its markers are overridden and how many they are depends
on the set of its markers alone (`Names.agrees_of_markers`), and nothing depends on annotations that
are no markers (`strongest_marker_wins`).
-/

namespace Closedness

/-! ## Distinct elements in the order in which they first occur -/

section EraseDups

variable {α : Type} [BEq α] [LawfulBEq α]

theorem nodup_eraseDups : ∀ l : List α, l.eraseDups.Nodup
  | [] => List.nodup_nil
  | a :: l => by
    rw [List.eraseDups_cons, List.nodup_cons]
    refine ⟨?_, nodup_eraseDups (l.filter fun b => !b == a)⟩
    simp [List.mem_eraseDups]
termination_by l => l.length
decreasing_by exact Nat.lt_succ_of_le (List.length_filter_le _ l)

/-- Elements can be left out before or after repetitions are. -/
theorem eraseDups_filter (p : α → Bool) : ∀ l : List α,
    (l.filter p).eraseDups = l.eraseDups.filter p
  | [] => rfl
  | a :: l => by
    have ih := eraseDups_filter p (l.filter fun b => !b == a)
    rw [List.filter_comm] at ih
    by_cases ha : p a = true
    · rw [List.filter_cons_of_pos ha, List.eraseDups_cons, List.eraseDups_cons,
        List.filter_cons_of_pos ha, ih]
    · have hleft : (l.filter p).filter (fun b => !b == a) = l.filter p := by
        refine List.filter_eq_self.2 fun b hb => ?_
        have hne : b ≠ a := fun heq => ha (heq ▸ (List.mem_filter.1 hb).2)
        simp [hne]
      rw [List.filter_cons_of_neg ha, List.eraseDups_cons, List.filter_cons_of_neg ha, ← ih, hleft]
termination_by l => l.length
decreasing_by exact Nat.lt_succ_of_le (List.length_filter_le _ l)

end EraseDups

/-! ## Markers among annotations -/

/-- No two markers have the same priority. -/
theorem Marker.eq_of_priority {m n : Marker} (h : m.priority = n.priority) : m = n := by
  cases m <;> cases n <;> first | rfl | cases h

namespace Names

variable (names : Names)

/-- The markers that annotations carry, in order. -/
def markers (annots : List Annot) : List Marker :=
  annots.filterMap names.marker?

/-- The first annotation that carries a marker. -/
def first? (m : Marker) (annots : List Annot) : Option Annot :=
  annots.find? fun a => names.marker? a = some m

/-- The last annotation that carries a marker. -/
def last? (m : Marker) (annots : List Annot) : Option Annot :=
  annots.findRev? fun a => names.marker? a = some m

/-- Dropping the qualifier of a name does not change what it stands for. -/
theorem marker?_simpleName (a : Annot) (span : Span) :
    names.marker? { name := a.simpleName, span := span } = names.marker? a := by
  have hname : Annot.simpleName { name := a.simpleName, span := span } = a.simpleName := by
    simp only [Annot.simpleName, String.toList_ofList, List.reverse_reverse, List.takeWhile_idem]
  rw [marker?, marker?, hname]

theorem map_fst_marked (annots : List Annot) :
    (names.marked annots).map Prod.fst = names.markers annots := by
  rw [marked, markers, List.map_filterMap]
  simp [Function.comp_def]

/-- The first annotation that stands for a marker. -/
theorem find?_marked (m : Marker) (annots : List Annot) :
    (names.marked annots).find? (fun x => x.1 = m) =
      (names.first? m annots).map fun a => (m, a) := by
  induction annots with
  | nil => rfl
  | cons a rest ih =>
    unfold marked first? at ih ⊢
    rw [List.filterMap_cons, List.find?_cons]
    cases ha : names.marker? a with
    | none => simpa [ha] using ih
    | some n =>
      by_cases hn : n = m
      · simp [hn]
      · simpa [hn] using ih

theorem findRev?_marked (m : Marker) (annots : List Annot) :
    (names.marked annots).findRev? (fun x => x.1 = m) =
      (names.last? m annots).map fun a => (m, a) := by
  have hreverse : (names.marked annots).reverse = names.marked annots.reverse := by
    rw [marked, marked, List.filterMap_reverse]
  rw [last?, List.findRev?_eq_find?_reverse, List.findRev?_eq_find?_reverse, hreverse]
  exact names.find?_marked m annots.reverse

/-! ## The winner -/

/-- The fold ends with a strongest marked annotation, and with the last of its marker. -/
theorem foldl_stronger (first : Marker × Annot) (rest : List (Marker × Annot)) :
    let best := rest.foldl stronger first
    (∀ x ∈ first :: rest, x.1.priority ≤ best.1.priority) ∧
      (first :: rest).findRev? (fun x => x.1 = best.1) = some best := by
  -- one more annotation at the end wins unless it is weaker than the winner so far
  induction rest using List.reverseRecOn with
  | nil => simp [List.findRev?]
  | append_singleton rest last ih =>
    obtain ⟨hle, hlast⟩ := ih
    simp only [List.foldl_append, List.foldl_cons, List.foldl_nil]
    rw [List.findRev?_eq_find?_reverse] at hlast
    generalize rest.foldl stronger first = best at hle hlast
    have hreverse : (first :: (rest ++ [last])).reverse = last :: (first :: rest).reverse := by
      simp
    rw [List.findRev?_eq_find?_reverse, hreverse, List.find?_cons]
    unfold stronger
    split
    · next hstronger =>
      refine ⟨fun x hx => ?_, by simp⟩
      rw [← List.cons_append, List.mem_append, List.mem_singleton] at hx
      obtain hx | rfl := hx
      · exact Nat.le_trans (hle x hx) hstronger
      · exact Nat.le_refl _
    · next hweaker =>
      have hne : last.1 ≠ best.1 := fun heq => hweaker (Nat.le_of_eq (congrArg _ heq.symm))
      refine ⟨fun x hx => ?_, by simpa [hne] using hlast⟩
      rw [← List.cons_append, List.mem_append, List.mem_singleton] at hx
      obtain hx | rfl := hx
      · exact hle x hx
      · exact Nat.le_of_lt (Nat.lt_of_not_le hweaker)

/-! ## The overridden markers -/

/-- What is found first in a list is found first behind an element of another marker. -/
theorem forall₂_find?_cons {x : Marker × Annot} {rest : List (Marker × Annot)} {ms : List Marker}
    {annots : List Annot} (hms : ∀ m ∈ ms, m ≠ x.1)
    (h : List.Forall₂ (fun m a => rest.find? (fun y => y.1 = m) = some (m, a)) ms annots) :
    List.Forall₂ (fun m a => (x :: rest).find? (fun y => y.1 = m) = some (m, a)) ms annots := by
  refine List.forall₂_iff_zip.2 ⟨h.length_eq, fun {m a} hzip => ?_⟩
  have hne : ¬ x.1 = m := fun heq => hms m (List.of_mem_zip hzip).1 heq.symm
  rw [List.find?_cons_of_neg (by simpa using hne)]
  exact (List.forall₂_iff_zip.1 h).2 hzip

/-- The losers are the first annotations of the distinct markers but the best, in order. -/
theorem losers_first (best : Marker) (l : List (Marker × Annot)) (seen : List Marker) :
    List.Forall₂ (fun m a => l.find? (fun x => x.1 = m) = some (m, a))
      ((l.map Prod.fst).eraseDups.filter fun m => m ≠ best ∧ m ∉ seen) (losers best l seen) := by
  induction l generalizing seen with
  | nil => exact .nil
  | cons x rest ih =>
    obtain ⟨m, a⟩ := x
    rw [List.map_cons, List.eraseDups_cons, eraseDups_filter, losers]
    split
    · next hskip =>
      -- the marker is passed over, and its repetitions would be passed over anyway
      have hm : decide (m ≠ best ∧ m ∉ seen) = false := by
        simpa using fun h => hskip.resolve_left h
      have hfilter : (m :: (rest.map Prod.fst).eraseDups.filter fun n => !n == m).filter
          (fun n => decide (n ≠ best ∧ n ∉ seen)) =
          (rest.map Prod.fst).eraseDups.filter fun n => decide (n ≠ best ∧ n ∉ seen) := by
        rw [List.filter_cons_of_neg (by rw [hm]; exact Bool.false_ne_true), List.filter_filter]
        refine List.filter_congr fun n _ => ?_
        by_cases hn : n = m
        · rw [hn, hm, Bool.false_and]
        · simp [hn]
      rw [hfilter]
      refine forall₂_find?_cons (fun n hn heq => ?_) (ih seen)
      rw [List.mem_filter, heq, hm] at hn
      exact Bool.false_ne_true hn.2
    · next hnew =>
      rw [not_or] at hnew
      have hfilter : (rest.map Prod.fst).eraseDups.filter
            (fun n => decide (n ≠ best ∧ n ∉ seen) && !n == m) =
          (rest.map Prod.fst).eraseDups.filter fun n => decide (n ≠ best ∧ n ∉ m :: seen) := by
        refine List.filter_congr fun n _ => ?_
        by_cases hn : n = m <;> simp [hn]
      rw [List.filter_cons_of_pos (by simpa using hnew), List.filter_filter, hfilter]
      refine .cons (by simp) (forall₂_find?_cons (fun n hn heq => ?_) (ih (m :: seen)))
      obtain ⟨-, hseen⟩ := of_decide_eq_true (List.mem_filter.1 hn).2
      exact hseen (heq ▸ List.mem_cons_self)

/-- The markers that the conflicts of a resolution name as overridden. -/
def overridden (r : Resolution) : List Marker :=
  r.conflicts.filterMap fun c => names.marker? { name := c.loser, span := c.span }

/-- The conflict of an overridden marker: it stands at the first annotation that carries it. -/
def IsConflict (annots : List Annot) (winner : Annot) (m : Marker) (c : Conflict) : Prop :=
  ∃ loser, names.first? m annots = some loser ∧
    c = { span := loser.span, winner := winner.simpleName, loser := loser.simpleName }

/-- The annotations resolve to what the strongest marker among them asks for, which stands last at
the winner, and every other marker is in conflict with it once, in the order in which they first
occur. -/
structure Prevails (annots : List Annot) (best : Marker) (winner : Annot) : Prop where
  mem : best ∈ names.markers annots
  greatest : ∀ m ∈ names.markers annots, m.priority ≤ best.priority
  last : names.last? best annots = some winner
  binding : (names.resolve annots).binding = some best.binding
  span : (names.resolve annots).span = some winner.span
  conflicts : List.Forall₂ (names.IsConflict annots winner)
    ((names.markers annots).eraseDups.filter fun m => m ≠ best) (names.resolve annots).conflicts

variable {names} {annots annots' : List Annot}

theorem markers_eq_nil_iff : names.markers annots = [] ↔ ∀ a ∈ annots, names.marker? a = none :=
  List.filterMap_eq_nil_iff

/-- Annotations that stand for no marker ask for nothing. -/
theorem resolve_of_markers_eq_nil (h : names.markers annots = []) : names.resolve annots = {} := by
  rw [← map_fst_marked, List.map_eq_nil_iff] at h
  rw [resolve, h]

/-- **Where there are markers, the strongest of them prevails.** -/
theorem exists_prevails (h : names.markers annots ≠ []) :
    ∃ best winner, names.Prevails annots best winner := by
  rw [← map_fst_marked, Ne, List.map_eq_nil_iff] at h
  obtain ⟨first, rest, hmarked⟩ := List.exists_cons_of_ne_nil h
  have hresolve : names.resolve annots =
      { binding := some (rest.foldl stronger first).1.binding
        span := some (rest.foldl stronger first).2.span
        conflicts :=
          (losers (rest.foldl stronger first).1 (names.marked annots) []).map fun loser =>
            { span := loser.span
              winner := (rest.foldl stronger first).2.simpleName
              loser := loser.simpleName } } := by
    rw [resolve, hmarked]
  obtain ⟨hle, hlast⟩ := foldl_stronger first rest
  generalize rest.foldl stronger first = best at hle hlast hresolve
  obtain ⟨best, winner⟩ := best
  rw [← hmarked] at hle hlast
  have hmem : (best, winner) ∈ names.marked annots := by
    rw [List.findRev?_eq_find?_reverse] at hlast
    exact List.mem_reverse.1 (List.mem_of_find?_eq_some hlast)
  refine ⟨best, winner, ?_, ?_, ?_, ?_, ?_, ?_⟩
  · rw [← map_fst_marked]
    exact List.mem_map_of_mem hmem
  · intro m hm
    rw [← map_fst_marked] at hm
    obtain ⟨x, hx, rfl⟩ := List.mem_map.1 hm
    exact hle x hx
  · rw [findRev?_marked] at hlast
    obtain ⟨a, ha, heq⟩ := Option.map_eq_some_iff.1 hlast
    rwa [← (Prod.mk.inj heq).2]
  · rw [hresolve]
  · rw [hresolve]
  · rw [hresolve, List.forall₂_map_right_iff]
    have hlosers := losers_first best (names.marked annots) []
    simp only [map_fst_marked, List.not_mem_nil, not_false_eq_true, and_true] at hlosers
    refine hlosers.imp fun m a hm => ?_
    rw [find?_marked] at hm
    obtain ⟨b, hb, heq⟩ := Option.map_eq_some_iff.1 hm
    exact ⟨b, hb, by rw [(Prod.mk.inj heq).2]⟩

namespace Prevails

variable {best : Marker} {winner : Annot}

/-- There is one conflict less than there are distinct markers. -/
theorem length_conflicts (h : names.Prevails annots best winner) :
    (names.resolve annots).conflicts.length + 1 = (names.markers annots).toFinset.card := by
  have hnodup := nodup_eraseDups (names.markers annots)
  have hmem : best ∈ (names.markers annots).eraseDups := List.mem_eraseDups.2 h.mem
  have hdistinct : (names.markers annots).eraseDups.toFinset = (names.markers annots).toFinset := by
    ext m
    rw [List.mem_toFinset, List.mem_toFinset, List.mem_eraseDups]
  have herase : ((names.markers annots).eraseDups.filter fun m => m ≠ best) =
      (names.markers annots).eraseDups.erase best := by
    rw [hnodup.erase_eq_filter]
    exact List.filter_congr fun m _ => by rw [decide_not, bne, beq_eq_decide]
  rw [← h.conflicts.length_eq, herase, List.length_erase_of_mem hmem, ← hdistinct,
    List.toFinset_card_of_nodup hnodup, Nat.sub_add_cancel (List.length_pos_of_mem hmem)]

/-- The markers named as overridden are the distinct ones but the winner. -/
theorem overridden_eq (h : names.Prevails annots best winner) :
    names.overridden (names.resolve annots) =
      (names.markers annots).eraseDups.filter fun m => m ≠ best := by
  have hconflicts := h.conflicts
  rw [overridden]
  generalize (names.markers annots).eraseDups.filter (fun m => m ≠ best) = ms,
    (names.resolve annots).conflicts = cs at hconflicts ⊢
  induction hconflicts with
  | nil => rfl
  | @cons m c ms cs hc _ ih =>
    obtain ⟨loser, hfirst, rfl⟩ := hc
    have hm : names.marker? loser = some m := by
      simpa using List.find?_some hfirst
    rw [List.filterMap_cons, marker?_simpleName, hm, ih]

end Prevails

/-! ## What depends on the set of markers alone -/

/-- Two resolutions ask for the same and override the same markers, equally often. -/
structure Agrees (names : Names) (r r' : Resolution) : Prop where
  binding : r.binding = r'.binding
  overridden : ∀ m, m ∈ names.overridden r ↔ m ∈ names.overridden r'
  length_conflicts : r.conflicts.length = r'.conflicts.length

/-- **Annotations that carry the same set of markers agree**, in whichever order and however
often they carry them. -/
theorem agrees_of_markers (h : ∀ m, m ∈ names.markers annots ↔ m ∈ names.markers annots') :
    names.Agrees (names.resolve annots) (names.resolve annots') := by
  by_cases hnil : names.markers annots = []
  · have hnil' : names.markers annots' = [] :=
      List.eq_nil_iff_forall_not_mem.2 fun m hm => by simpa [hnil] using (h m).2 hm
    rw [resolve_of_markers_eq_nil hnil, resolve_of_markers_eq_nil hnil']
    exact ⟨rfl, fun _ => Iff.rfl, rfl⟩
  have hnil' : names.markers annots' ≠ [] := by
    obtain ⟨m, hm⟩ := List.exists_mem_of_ne_nil _ hnil
    exact List.ne_nil_of_mem ((h m).1 hm)
  obtain ⟨best, winner, hbest⟩ := exists_prevails hnil
  obtain ⟨best', winner', hbest'⟩ := exists_prevails hnil'
  obtain rfl : best = best' := Marker.eq_of_priority <| Nat.le_antisymm
    (hbest'.greatest best ((h best).1 hbest.mem)) (hbest.greatest best' ((h best').2 hbest'.mem))
  refine ⟨hbest.binding.trans hbest'.binding.symm, fun m => ?_, ?_⟩
  · rw [hbest.overridden_eq, hbest'.overridden_eq, List.mem_filter, List.mem_filter,
      List.mem_eraseDups, List.mem_eraseDups, h m]
  · have hset : (names.markers annots).toFinset = (names.markers annots').toFinset := by
      ext m
      rw [List.mem_toFinset, List.mem_toFinset, h m]
    have hcount := hbest.length_conflicts
    rw [hset, ← hbest'.length_conflicts] at hcount
    exact Nat.succ.inj hcount

/-- Annotations that are no markers play no part. -/
theorem marked_filter_isSome (annots : List Annot) :
    names.marked (annots.filter fun a => (names.marker? a).isSome) = names.marked annots := by
  rw [marked, marked, List.filterMap_filter]
  refine List.filterMap_congr fun a _ => ?_
  cases names.marker? a <;> rfl

end Names

/-- **The strongest marker wins.** Annotations amount to nothing exactly when none of them is a
marker; otherwise the strongest marker prevails, and there is one conflict less than there are
distinct markers. What is asked for, which markers are overridden and how many they are depend on
neither the order of the annotations nor on repetitions of a marker, under the same or another name,
and nothing depends on annotations that are no markers. -/
theorem strongest_marker_wins (names : Names) (annots : List Annot) :
    (names.resolve annots = {} ↔ ∀ a ∈ annots, names.marker? a = none) ∧
    ((∃ a ∈ annots, names.marker? a ≠ none) → ∃ best winner,
      names.Prevails annots best winner ∧
      (names.resolve annots).conflicts.length + 1 = (names.markers annots).toFinset.card) ∧
    (∀ annots' : List Annot, annots'.Perm annots →
      names.Agrees (names.resolve annots') (names.resolve annots)) ∧
    (∀ before after a b, annots = before ++ after → b ∈ annots →
      names.marker? a = names.marker? b →
      names.Agrees (names.resolve (before ++ a :: after)) (names.resolve annots)) ∧
    (∀ annots' : List Annot,
      annots'.filter (fun a => (names.marker? a).isSome) =
        annots.filter (fun a => (names.marker? a).isSome) →
      names.resolve annots' = names.resolve annots) := by
  refine ⟨⟨fun hempty => ?_, fun hnone => ?_⟩, fun hsome => ?_, fun annots' hperm => ?_,
    fun before after a b happend hb hmarker => ?_, fun annots' hfilter => ?_⟩
  · by_contra hsome
    obtain ⟨best, winner, hbest⟩ := Names.exists_prevails (mt Names.markers_eq_nil_iff.1 hsome)
    simpa [hempty] using hbest.binding
  · exact Names.resolve_of_markers_eq_nil (Names.markers_eq_nil_iff.2 hnone)
  · obtain ⟨a, ha, hmarker⟩ := hsome
    obtain ⟨best, winner, hbest⟩ := Names.exists_prevails
      (fun hnil => hmarker (Names.markers_eq_nil_iff.1 hnil a ha))
    exact ⟨best, winner, hbest, hbest.length_conflicts⟩
  · exact Names.agrees_of_markers fun m => (hperm.filterMap names.marker?).mem_iff
  · subst happend
    refine Names.agrees_of_markers fun m => ?_
    have ha : names.marker? a = some m → ∃ c ∈ before ++ after, names.marker? c = some m :=
      fun h => ⟨b, hb, hmarker ▸ h⟩
    simp only [Names.markers, List.mem_filterMap, List.mem_append, List.mem_cons] at ha ⊢
    grind
  · rw [Names.resolve, ← Names.marked_filter_isSome annots', hfilter, Names.marked_filter_isSome,
      ← Names.resolve]

namespace Overriding

/-- Three markers, two of them twice and once under a qualified name, around an annotation that is
no marker. -/
def annots : List Annot :=
  [⟨"util.Bound", .spot 1⟩, ⟨"Inherit", .spot 2⟩, ⟨"Closed", .spot 3⟩, ⟨"Override", .spot 4⟩,
    ⟨"Bound", .spot 5⟩, ⟨"util.Closed", .spot 6⟩]

/-- The last of the strongest markers wins over the first of each other one, and reversing the
annotations or one more repetition in front changes neither the winner nor the overridden. -/
theorem strongest_marker_wins_overriding :
    Names.resolve {} annots =
      { binding := some (.level .closed)
        span := some (.spot 6)
        conflicts := [⟨.spot 1, "Closed", "Bound"⟩, ⟨.spot 2, "Closed", "Inherit"⟩] } ∧
    (∃ best winner, Names.Prevails {} annots best winner ∧
      (Names.resolve {} annots).conflicts.length + 1 = (Names.markers {} annots).toFinset.card) ∧
    Names.Agrees {} (Names.resolve {} annots.reverse) (Names.resolve {} annots) ∧
    Names.Agrees {} (Names.resolve {} (⟨"Inherit", .spot 9⟩ :: annots)) (Names.resolve {} annots) ∧
    Names.resolve {} (annots ++ [⟨"Deprecated", .spot 9⟩]) = Names.resolve {} annots := by
  obtain ⟨-, hprevails, hperm, hrepeat, hother⟩ := strongest_marker_wins {} annots
  refine ⟨by decide, hprevails ⟨⟨"Inherit", .spot 2⟩, by decide, by decide⟩,
    hperm _ (List.reverse_perm _), ?_, hother _ (by decide)⟩
  exact hrepeat [] annots ⟨"Inherit", .spot 9⟩ ⟨"Inherit", .spot 2⟩ rfl (by decide) (by decide)

end Overriding

end Closedness
