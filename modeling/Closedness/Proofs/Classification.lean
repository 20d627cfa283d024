import Closedness.Config.Basic
import Mathlib.Data.List.Basic
import Mathlib.Data.List.Pairwise
import Mathlib.Data.List.TakeWhile

/-!
# What a valid configuration says about annotations

A configuration is valid just if no name in its lists is blank and no name stands in two of them
(`Names.Unambiguous`), and an error that is found names entries that are at fault
(`Names.IsFault`). The search goes through the lists once and compares each with those after it, so
both are proved of any number of lists (`Names.listDefect?_eq_none_iff`,
`Names.pointsAt_of_listDefect?`).

Under a valid configuration an annotation is a marker just if its simple name is in the list of that
marker. The lists are then searched in any order with the same outcome
(`valid_config_classifies`).
-/

namespace Closedness

/-! ## Blank names -/

namespace Text

/-- A text without the white space at its ends. -/
def trim (s : String) : String :=
  String.ofList ((s.toList.dropWhile isWhiteSpace).reverse.dropWhile isWhiteSpace).reverse

theorem trim_eq_empty_iff (s : String) : trim s = "" ↔ isBlank s = true := by
  have hempty : trim s = "" ↔
      (s.toList.dropWhile isWhiteSpace).reverse.dropWhile isWhiteSpace = [] := by
    rw [trim, String.ofList_eq_empty_iff, List.reverse_eq_nil_iff]
  rw [hempty, List.dropWhile_eq_nil_iff, isBlank, List.all_eq_true]
  constructor
  · intro hrest
    -- a character that is left at the front is none of white space
    refine List.dropWhile_eq_nil_iff.1 ?_
    cases hleft : s.toList.dropWhile isWhiteSpace with
    | nil => rfl
    | cons c rest =>
      have hc : isWhiteSpace c = true := hrest c (by simp [hleft])
      have hhead := List.head?_dropWhile_not isWhiteSpace s.toList
      rw [hleft] at hhead
      exact absurd hc (by simpa using hhead)
  · intro hall c hc
    exact hall c ((List.dropWhile_sublist _).subset (List.mem_reverse.1 hc))

end Text

/-! ## Simple names -/

/-- The text is what follows the last point of a name, or all of a name without one. -/
def AfterLastPoint (name text : String) : Prop :=
  '.' ∉ text.toList ∧ (name = text ∨ ∃ qualifier, name = qualifier ++ "." ++ text)

/-- The simple name of a marker is what follows the last point. -/
theorem Annot.simpleName_eq_iff (a : Annot) (text : String) :
    a.simpleName = text ↔ AfterLastPoint a.name text := by
  constructor
  · rintro rfl
    have hsplit := List.takeWhile_append_dropWhile (p := (· ≠ '.')) (l := a.name.toList.reverse)
    have hname : a.name.toList = (a.name.toList.reverse.dropWhile (· ≠ '.')).reverse ++
        a.simpleName.toList := by
      rw [simpleName, String.toList_ofList, ← List.reverse_append, hsplit, List.reverse_reverse]
    refine ⟨fun hpoint => ?_, ?_⟩
    · rw [simpleName, String.toList_ofList, List.mem_reverse] at hpoint
      simpa using List.mem_takeWhile_imp hpoint
    · -- what is in front is empty or ends in a point
      cases hfront : a.name.toList.reverse.dropWhile (· ≠ '.') with
      | nil =>
        rw [hfront, List.reverse_nil, List.nil_append] at hname
        exact Or.inl (String.toList_inj.1 hname)
      | cons c qualifier =>
        have hc := List.head?_dropWhile_not (fun c => decide (c ≠ '.')) a.name.toList.reverse
        rw [hfront] at hc
        obtain rfl : c = '.' := by simpa using hc
        refine Or.inr ⟨String.ofList qualifier.reverse, String.toList_inj.1 ?_⟩
        rw [hname, hfront]
        simp
  · rintro ⟨hpoint, hname⟩
    have hall : ∀ c ∈ text.toList.reverse, decide (c ≠ '.') = true := fun c hc =>
      decide_eq_true fun heq => hpoint (heq ▸ List.mem_reverse.1 hc)
    refine String.toList_inj.1 ?_
    rw [simpleName, String.toList_ofList]
    obtain hname | ⟨qualifier, hname⟩ := hname
    · rw [hname, List.takeWhile_eq_self_iff.2 hall, List.reverse_reverse]
    · have hreverse : a.name.toList.reverse =
          text.toList.reverse ++ '.' :: qualifier.toList.reverse := by
        rw [hname]
        simp
      rw [hreverse, List.takeWhile_append_of_pos hall, List.takeWhile_cons_of_neg (by simp),
        List.append_nil, List.reverse_reverse]

/-! ## The search for a fault -/

namespace Names

/-- A list has no faulty entry just when none is blank and none is in a later list. -/
theorem entryDefect?_eq_none_iff (list : String) (later : List (String × List String))
    (entries : List String) :
    entryDefect? list later entries = none ↔
      ∀ name ∈ entries, Text.isBlank name = false ∧ ∀ l ∈ later, name ∉ l.2 := by
  induction entries with
  | nil => simp [entryDefect?]
  | cons name rest ih =>
    rw [entryDefect?, List.forall_mem_cons, ← ih]
    split
    · next hblank => simp [hblank]
    · next hblank =>
      split
      · next other hother =>
        have hmem : other ∈ later := List.mem_of_find?_eq_some hother
        have hname : name ∈ other.2 := by simpa using List.find?_some hother
        refine iff_of_false nofun fun h => h.1.2 other hmem hname
      · next hnone =>
        rw [List.find?_eq_none] at hnone
        have hlater : ∀ l ∈ later, name ∉ l.2 := by simpa using hnone
        exact ⟨fun hrest => ⟨⟨by simpa using hblank, hlater⟩, hrest⟩, fun h => h.2⟩

/-- **Several lists are without fault just if no entry is blank and no two share one.** -/
theorem listDefect?_eq_none_iff (lists : List (String × List String)) :
    listDefect? lists = none ↔
      (∀ l ∈ lists, ∀ name ∈ l.2, Text.isBlank name = false) ∧
        lists.Pairwise fun a b => a.2.Disjoint b.2 := by
  induction lists with
  | nil => simp [listDefect?]
  | cons l later ih =>
    obtain ⟨list, entries⟩ := l
    rw [listDefect?, List.forall_mem_cons, List.pairwise_cons]
    cases hentry : entryDefect? list later entries with
    | some e =>
      refine iff_of_false nofun fun ⟨⟨hblank, _⟩, hdisjoint, _⟩ => ?_
      have hnone := (entryDefect?_eq_none_iff list later entries).2 fun name hname =>
        ⟨hblank name hname, fun other hother => hdisjoint other hother hname⟩
      simp [hentry] at hnone
    | none =>
      have hclean := (entryDefect?_eq_none_iff list later entries).1 hentry
      simp only [ih]
      constructor
      · rintro ⟨hblank, hpairwise⟩
        exact ⟨⟨fun name hname => (hclean name hname).1, hblank⟩,
          fun other hother name hname => (hclean name hname).2 other hother, hpairwise⟩
      · rintro ⟨⟨_, hblank⟩, _, hpairwise⟩
        exact ⟨hblank, hpairwise⟩

/-- The error points at entries that are at fault: at a blank one, or at one name in two lists. -/
def PointsAt (lists : List (String × List String)) : ConfigError → Prop
  | .emptyName list => ∃ l ∈ lists, l.1 = list ∧ ∃ name ∈ l.2, Text.isBlank name = true
  | .ambiguous name first second =>
    ∃ a b, [a, b].Sublist lists ∧ a.1 = first ∧ b.1 = second ∧ name ∈ a.2 ∧ name ∈ b.2
  | .unreadable _ _ | .malformed _ _ => False

/-- An error that points at entries of some lists points at them among more lists. -/
theorem PointsAt.cons {lists : List (String × List String)} {e : ConfigError}
    (h : PointsAt lists e) (l : String × List String) : PointsAt (l :: lists) e := by
  cases e with
  | emptyName list =>
    obtain ⟨l', hl', hfault⟩ := h
    exact ⟨l', List.mem_cons_of_mem l hl', hfault⟩
  | ambiguous name first second =>
    obtain ⟨a, b, hsublist, hfault⟩ := h
    exact ⟨a, b, hsublist.cons l, hfault⟩
  | unreadable path reason => exact h
  | malformed path reason => exact h

/-- The error about an entry points at it, wherever the search began. -/
theorem pointsAt_of_entryDefect? {list : String} {later : List (String × List String)}
    {entries : List String} {e : ConfigError} (h : entryDefect? list later entries = some e)
    (before : List String) : PointsAt ((list, before ++ entries) :: later) e := by
  induction entries generalizing before with
  | nil => cases h
  | cons name rest ih =>
    rw [entryDefect?] at h
    split at h
    · next hblank =>
      cases h
      exact ⟨_, List.mem_cons_self, rfl, name, by simp, hblank⟩
    · split at h
      · next other hother =>
        cases h
        have hmem : other ∈ later := List.mem_of_find?_eq_some hother
        have hname : name ∈ other.2 := by simpa using List.find?_some hother
        exact ⟨_, other, (List.singleton_sublist.2 hmem).cons_cons _, rfl, rfl, by simp, hname⟩
      · have hrest := ih h (before ++ [name])
        rwa [List.append_assoc] at hrest

/-- **An error that is found points at entries that are at fault.** -/
theorem pointsAt_of_listDefect? {lists : List (String × List String)} {e : ConfigError}
    (h : listDefect? lists = some e) : PointsAt lists e := by
  induction lists with
  | nil => cases h
  | cons l later ih =>
    obtain ⟨list, entries⟩ := l
    rw [listDefect?] at h
    split at h
    · next e' hentry =>
      cases h
      exact pointsAt_of_entryDefect? hentry []
    · exact (ih h).cons _

end Names

/-! ## The lists of the markers -/

namespace Marker

/-- Every marker, in the order in which a configuration lists them. -/
def all : List Marker := [.closed, .bound, .inherit, .noInherit]

theorem mem_all (m : Marker) : m ∈ all := by
  cases m <;> decide

/-- The name that the list of a marker has in a configuration. -/
def listName : Marker → String
  | .closed => "closed"
  | .bound => "bound"
  | .inherit => "inherit"
  | .noInherit => "no_inherit"

end Marker

namespace Names

variable (names : Names)

/-- The names that stand for a marker. -/
def listed : Marker → List String
  | .closed => names.closed
  | .bound => names.bound
  | .inherit => names.inherit
  | .noInherit => names.noInherit

theorem lists_eq_map : names.lists = Marker.all.map fun m => (m.listName, names.listed m) := rfl

/-- No name is empty once it is trimmed, and none is listed for two markers. -/
structure Unambiguous : Prop where
  trimmed : ∀ m, ∀ name ∈ names.listed m, Text.trim name ≠ ""
  disjoint : ∀ m n, m ≠ n → (names.listed m).Disjoint (names.listed n)

/-- The error names lists that are at fault: one with an entry that is empty once it is trimmed, or
two different ones that share the name. -/
def IsFault : ConfigError → Prop
  | .emptyName list =>
    ∃ m : Marker, list = m.listName ∧ ∃ name ∈ names.listed m, Text.trim name = ""
  | .ambiguous name first second => ∃ m n : Marker, m ≠ n ∧ first = m.listName ∧
    second = n.listName ∧ name ∈ names.listed m ∧ name ∈ names.listed n
  | .unreadable _ _ | .malformed _ _ => False

/-- Only ambiguous names are refused. -/
theorem listDefect?_lists_eq_none_iff : listDefect? names.lists = none ↔ names.Unambiguous := by
  rw [listDefect?_eq_none_iff, lists_eq_map, List.forall_mem_map, List.pairwise_map]
  have hblank : ∀ name, Text.isBlank name = false ↔ Text.trim name ≠ "" := fun name => by
    rw [Ne, Text.trim_eq_empty_iff, Bool.not_eq_true]
  simp only [hblank]
  have hsymm : Std.Symm fun m n => (names.listed m).Disjoint (names.listed n) :=
    ⟨fun _ _ h => List.disjoint_symm h⟩
  constructor
  · rintro ⟨htrimmed, hpairwise⟩
    exact ⟨fun m => htrimmed m m.mem_all, fun m n => hpairwise.forall m.mem_all n.mem_all⟩
  · rintro ⟨htrimmed, hdisjoint⟩
    have hnodup : Marker.all.Nodup := by decide
    exact ⟨fun m _ => htrimmed m, hnodup.imp fun {m n} hne => hdisjoint m n hne⟩

theorem isFault_of_pointsAt {e : ConfigError} (h : PointsAt names.lists e) : names.IsFault e := by
  rw [lists_eq_map] at h
  cases e with
  | emptyName list =>
    obtain ⟨l, hl, rfl, name, hname, hblank⟩ := h
    obtain ⟨m, -, rfl⟩ := List.mem_map.1 hl
    exact ⟨m, rfl, name, hname, (Text.trim_eq_empty_iff name).2 hblank⟩
  | ambiguous name first second =>
    obtain ⟨a, b, hsublist, rfl, rfl, ha, hb⟩ := h
    obtain ⟨ms, hms, heq⟩ := List.sublist_map_iff.1 hsublist
    obtain ⟨m, n, rfl⟩ : ∃ m n, ms = [m, n] :=
      List.length_eq_two.1 (by simpa using congrArg List.length heq.symm)
    have hnodup : [m, n].Nodup := hms.nodup (by decide)
    simp only [List.map_cons, List.map_nil, List.cons.injEq, and_true] at heq
    obtain ⟨rfl, rfl⟩ := heq
    exact ⟨m, n, by simpa using hnodup, rfl, rfl, ha, hb⟩
  | unreadable path reason => exact h
  | malformed path reason => exact h

/-! ## Searching the lists for a name -/

/-- The first of several markers, in the given order, whose list has the name of an annotation. -/
def firstListed? (order : List Marker) (a : Annot) : Option Marker :=
  order.find? fun m => a.simpleName ∈ names.listed m

/-- A marker is looked up in the lists from the strongest down. -/
theorem marker?_eq_firstListed? (a : Annot) :
    names.marker? a = names.firstListed? [.noInherit, .closed, .bound, .inherit] a := by
  simp only [marker?, firstListed?, List.find?_cons, listed]
  split_ifs <;> simp_all

variable {names}

/-- Where no name is listed twice, the order in which the lists are searched makes no difference. -/
theorem Unambiguous.firstListed?_eq_some_iff (h : names.Unambiguous) {order : List Marker}
    (horder : ∀ m, m ∈ order) {a : Annot} {m : Marker} :
    names.firstListed? order a = some m ↔ a.simpleName ∈ names.listed m := by
  constructor
  · intro hfind
    simpa using List.find?_some hfind
  · intro hlisted
    have hsome : (names.firstListed? order a).isSome :=
      List.find?_isSome.2 ⟨m, horder m, by simpa using hlisted⟩
    obtain ⟨n, hn⟩ := Option.isSome_iff_exists.1 hsome
    have hlisted' : a.simpleName ∈ names.listed n := by simpa using List.find?_some hn
    by_contra hne
    have hmn : n ≠ m := fun heq => hne (heq ▸ hn)
    exact h.disjoint n m hmn hlisted' hlisted

end Names

namespace Config

/-- A configuration is valid just when its names are unambiguous. -/
theorem validate_eq_ok_iff (config : Config) :
    config.validate = .ok config ↔ config.names.Unambiguous := by
  rw [← Names.listDefect?_lists_eq_none_iff, validate, defect?]
  cases Names.listDefect? config.names.lists with
  | none => simp
  | some e => simp

/-- The error of an invalid configuration names a fault of it. -/
theorem isFault_of_validate {config : Config} {e : ConfigError} (h : config.validate = .error e) :
    config.names.IsFault e := by
  rw [validate, defect?] at h
  split at h
  · cases h
  · next e' hdefect =>
    cases h
    exact config.names.isFault_of_pointsAt (Names.pointsAt_of_listDefect? hdefect)

end Config

/-- **A valid configuration says of every annotation which marker it is.** A configuration is valid
just if none of its names is empty once it is trimmed and none is listed for two markers, and an
error names the lists that are at fault. Under a valid configuration an annotation is a marker just
if what follows the last point of its name is listed for that marker; so it makes no difference in
which order the lists of the markers are searched. -/
theorem valid_config_classifies (config : Config) :
    (config.validate = .ok config ↔ config.names.Unambiguous) ∧
    (∀ e, config.validate = .error e → config.names.IsFault e) ∧
    (config.validate = .ok config → ∀ a : Annot,
      (∀ m, config.names.marker? a = some m ↔
        ∃ text ∈ config.names.listed m, AfterLastPoint a.name text) ∧
      ∀ order, order.Perm Marker.all →
        config.names.firstListed? order a = config.names.marker? a) := by
  refine ⟨config.validate_eq_ok_iff, fun e => Config.isFault_of_validate, fun hvalid a => ?_⟩
  have hnames := config.validate_eq_ok_iff.1 hvalid
  have hsearched : ∀ m : Marker, m ∈ [Marker.noInherit, .closed, .bound, .inherit] := by
    intro m
    cases m <;> decide
  refine ⟨fun m => ?_, fun order horder => ?_⟩
  · rw [Names.marker?_eq_firstListed?, hnames.firstListed?_eq_some_iff hsearched]
    simp only [← Annot.simpleName_eq_iff]
    simp
  · have hall : ∀ m, m ∈ order := fun m => horder.mem_iff.2 m.mem_all
    refine Option.ext fun m => ?_
    rw [Names.marker?_eq_firstListed?, hnames.firstListed?_eq_some_iff hall,
      hnames.firstListed?_eq_some_iff hsearched]

/-- Two names for closed terms and a repeated one for bound ones make no difficulty, and qualifiers
are left out of account; a name in two lists and a blank one are found. -/
theorem valid_config_classifies_aliases :
    let names : Names := { closed := ["Closed", "Sealed"], bound := ["Bound", "Bound"] }
    let shared : Names := { names with noInherit := ["NoInherit", "Sealed"] }
    let blank : Names := { names with inherit := ["Inherit", " \t"] }
    let annot : Annot := { name := "terms.marks.Sealed", span := default }
    Config.validate { names } = .ok { names } ∧
      names.marker? annot = some .closed ∧
      names.firstListed? [.inherit, .bound, .closed, .noInherit] annot = some .closed ∧
      shared.IsFault (.ambiguous "Sealed" "closed" "no_inherit") ∧
      blank.IsFault (.emptyName "inherit") := by
  intro names shared blank annot
  obtain ⟨-, -, hclassifies⟩ := valid_config_classifies { names }
  have hvalid : Config.validate { names } = .ok { names } := by decide +kernel
  obtain ⟨hmarker, horder⟩ := hclassifies hvalid annot
  have hclosed : names.marker? annot = some .closed :=
    (hmarker .closed).2 ⟨"Sealed", by decide, by decide, Or.inr ⟨"terms.marks", by decide⟩⟩
  have hshared : Config.validate { names := shared } =
      .error (.ambiguous "Sealed" "closed" "no_inherit") := by decide +kernel
  have hblank : Config.validate { names := blank } = .error (.emptyName "inherit") := by
    decide +kernel
  exact ⟨hvalid, hclosed, (horder _ (by decide)).trans hclosed,
    (valid_config_classifies { names := shared }).2.1 _ hshared,
    (valid_config_classifies { names := blank }).2.1 _ hblank⟩

end Closedness
