import Closedness.Proofs.Codecs
import Mathlib.Data.List.Perm.Basic

/-!
# Presentations of a JSON value

A record can be presented in many ways: its fields in any order, without those that have their
default, and with further members that no reader knows (`Json.Presents`). A reader is indifferent to
this: it finds every field, as it is presented or as its default (`Presents.record`,
`Presents.tagged`), so that it takes the presentation for what the value was written for
(`Json.Accepts`).

What carries a kind is decoded as a whole, so there a further member must at least be decodable. The
relation therefore follows whether it is inside such a value, and which values may be added there is
a parameter.
-/

namespace Closedness.Json

/-! ## What presentations of a value have in common -/

/-- The value that a field has when it is left out; `none` if it may not be. -/
def defaultOf? : String → Option Json
  | "types" | "methods" | "annotations" | "supertypes" | "params" | "args" | "children" =>
    some (.array [])
  | "is_static" | "is_varargs" => some (.bool false)
  | "return_ty" | "ty" | "body" | "init" | "else_branch" | "value" | "binding" | "receiver" =>
    some .null
  | "start_line" | "end_line" | "start_column" | "end_column" => some (.natural 0)
  | _ => none

/-- A value that holds no others. -/
def isScalar : Json → Bool
  | .array _ | .object _ => false
  | _ => true

/-- The value of an object with these members carries its kind. -/
def hasKind (members : Fields) : Bool :=
  decide ("kind" ∈ members.map Prod.fst)

/-- Members that can be added to an object: scalars under new names. -/
structure Additions (addable : Json → Prop) (members added : Fields) : Prop where
  nodup : (added.map Prod.fst).Nodup
  isNew : ∀ m ∈ added, m.1 ∉ members.map Prod.fst ∧ m.1 ≠ "kind"
  isAddable : ∀ m ∈ added, m.2.isScalar = true ∧ addable m.2

mutual

/-- The second value presents the first; `whole` says whether it is inside a value that carries its
kind, and `addable` which scalars can be added there and elsewhere. -/
inductive Presents (addable : Bool → Json → Prop) : Bool → Json → Json → Prop
  | scalar {whole : Bool} {value : Json} : value.isScalar = true →
      Presents addable whole value value
  | array {whole : Bool} {elements shown : List Json} :
      PresentsAll addable whole elements shown →
      Presents addable whole (.array elements) (.array shown)
  | object {whole : Bool} {members kept added shown : Fields} :
      PresentsMembers addable (whole || hasKind members) members kept →
      Additions (addable (whole || hasKind members)) members added →
      shown.Perm (kept ++ added) → Presents addable whole (.object members) (.object shown)

/-- Elements keep their places. -/
inductive PresentsAll (addable : Bool → Json → Prop) : Bool → List Json → List Json → Prop
  | nil {whole : Bool} : PresentsAll addable whole [] []
  | cons {whole : Bool} {value shown : Json} {rest others : List Json} :
      Presents addable whole value shown → PresentsAll addable whole rest others →
      PresentsAll addable whole (value :: rest) (shown :: others)

/-- The members that are kept; a member may be left out if it has its default. -/
inductive PresentsMembers (addable : Bool → Json → Prop) : Bool → Fields → Fields → Prop
  | nil {whole : Bool} : PresentsMembers addable whole [] []
  | keep {whole : Bool} {name : String} {value shown : Json} {rest kept : Fields} :
      Presents addable whole value shown → PresentsMembers addable whole rest kept →
      PresentsMembers addable whole ((name, value) :: rest) ((name, shown) :: kept)
  | drop {whole : Bool} {name : String} {value : Json} {rest kept : Fields} :
      defaultOf? name = some value → PresentsMembers addable whole rest kept →
      PresentsMembers addable whole ((name, value) :: rest) kept

end

variable {addable : Bool → Json → Prop}

theorem defaultOf?_cases {name : String} {value : Json} (h : defaultOf? name = some value) :
    value = .array [] ∨ value = .bool false ∨ value = .null ∨ value = .natural 0 := by
  unfold defaultOf? at h
  split at h <;> simp_all

theorem defaultOf?_ne_object (name : String) (members : Fields) :
    defaultOf? name ≠ some (.object members) := by
  intro h
  simpa using defaultOf?_cases h

theorem defaultOf?_ne_string (name s : String) : defaultOf? name ≠ some (.string s) := by
  intro h
  simpa using defaultOf?_cases h

theorem additions_nil (addable : Json → Prop) (members : Fields) : Additions addable members [] :=
  ⟨List.nodup_nil, fun _ => nofun, fun _ => nofun⟩

theorem additions_singleton {addable : Json → Prop} {members : Fields} (name : String)
    {value : Json} (hnew : name ∉ members.map Prod.fst ∧ name ≠ "kind")
    (hscalar : value.isScalar = true) (haddable : addable value) :
    Additions addable members [(name, value)] where
  nodup := by simp
  isNew := List.forall_mem_singleton.2 hnew
  isAddable := List.forall_mem_singleton.2 ⟨hscalar, haddable⟩

mutual

/-- Every value presents itself. -/
theorem presents_self : ∀ (value : Json) (whole : Bool), Presents addable whole value value
  | .null, _ | .bool _, _ | .natural _, _ | .decimal _, _ | .string _, _ | .undecodable, _ =>
    .scalar rfl
  | .array elements, whole => .array (presentsAll_self elements whole)
  | .object members, whole => by
    refine .object (presentsMembers_self members _) (additions_nil _ members) ?_
    rw [List.append_nil]

theorem presentsAll_self : ∀ (elements : List Json) (whole : Bool),
    PresentsAll addable whole elements elements
  | [], _ => .nil
  | element :: rest, whole => .cons (presents_self element whole) (presentsAll_self rest whole)

theorem presentsMembers_self : ∀ (members : Fields) (whole : Bool),
    PresentsMembers addable whole members members
  | [], _ => .nil
  | (_, value) :: rest, whole => .keep (presents_self value whole) (presentsMembers_self rest whole)

end

/-! ## Fields -/

/-- The names that are kept are in order. -/
theorem PresentsMembers.sublist {whole : Bool} {members kept : Fields} :
    PresentsMembers addable whole members kept →
      (kept.map Prod.fst).Sublist (members.map Prod.fst)
  | .nil => .slnil
  | .keep _ h => (h.sublist).cons_cons _
  | .drop _ h => (h.sublist).cons _

/-- A field is there as it is presented, or it is left out and has its default. -/
def Shown (addable : Bool → Json → Prop) (whole : Bool) (fields : Fields) (name : String)
    (value : Json) : Prop :=
  (∃ shown, fields.lookup name = some shown ∧ Presents addable whole value shown) ∨
    fields.lookup name = none ∧ defaultOf? name = some value

/-- Each of the members is a field that is there or left out. -/
def AllShown (addable : Bool → Json → Prop) (whole : Bool) (fields : Fields) : Fields → Prop
  | [] => True
  | (name, value) :: rest =>
    Shown addable whole fields name value ∧ AllShown addable whole fields rest

/-- A member is found by its name when no other one has it. -/
theorem lookup_of_mem {fields : Fields} (hnodup : (fields.map Prod.fst).Nodup) {name : String}
    {value : Json} (h : (name, value) ∈ fields) : fields.lookup name = some value := by
  induction fields with
  | nil => cases h
  | cons m rest ih =>
    obtain ⟨hnew, hnodup⟩ := List.nodup_cons.1 hnodup
    rcases List.mem_cons.1 h with rfl | h
    · exact List.lookup_cons_self
    · have hne : name ≠ m.1 := fun heq => hnew (heq ▸ List.mem_map_of_mem h)
      rw [List.lookup_cons, beq_false_of_ne hne]
      exact ih hnodup h

theorem lookup_of_not_mem {fields : Fields} {name : String} (h : name ∉ fields.map Prod.fst) :
    fields.lookup name = none := by
  refine List.lookup_eq_none_iff.2 fun m hm => ?_
  have hne : name ≠ m.1 := fun heq => h (heq ▸ List.mem_map_of_mem hm)
  simpa using hne

/-- Fields that hold what is kept, and nothing else under the names of the members, show them. -/
theorem PresentsMembers.allShown {whole : Bool} {members kept fields : Fields}
    (hfields : (fields.map Prod.fst).Nodup) (hnodup : (members.map Prod.fst).Nodup)
    (hkept : ∀ m ∈ kept, m ∈ fields)
    (habsent : ∀ name ∈ members.map Prod.fst, name ∉ kept.map Prod.fst →
      name ∉ fields.map Prod.fst) :
    PresentsMembers addable whole members kept → AllShown addable whole fields members
  | .nil => trivial
  | @keep _ _ name value shown rest kept hvalue h => by
    obtain ⟨hnew, hnodup⟩ := List.nodup_cons.1 hnodup
    obtain ⟨hfirst, hkept⟩ := List.forall_mem_cons.1 hkept
    refine ⟨.inl ⟨shown, lookup_of_mem hfields hfirst, hvalue⟩, h.allShown hfields hnodup hkept ?_⟩
    intro other hother hleft
    have hne : other ≠ name := fun heq => hnew (heq ▸ hother)
    exact habsent other (List.mem_cons_of_mem _ hother) (by simpa [hne] using hleft)
  | @drop _ _ name value rest kept hdefault h => by
    obtain ⟨hnew, hnodup⟩ := List.nodup_cons.1 hnodup
    have hleft : name ∉ fields.map Prod.fst :=
      habsent name List.mem_cons_self fun hmem => hnew (h.sublist.subset hmem)
    refine ⟨.inr ⟨lookup_of_not_mem hleft, hdefault⟩, h.allShown hfields hnodup hkept ?_⟩
    exact fun other hother => habsent other (List.mem_cons_of_mem _ hother)

/-! ## Records -/

/-- The members of an object that presents one with the given members. -/
def ShowsMembers (addable : Bool → Json → Prop) (whole : Bool) (members shown : Fields) : Prop :=
  ∃ kept added, PresentsMembers addable whole members kept ∧
    Additions (addable whole) members added ∧ shown.Perm (kept ++ added)

/-- An object is presented as an object that shows its members. -/
theorem Presents.members {whole : Bool} {members : Fields} {value : Json}
    (h : Presents addable whole (.object members) value) :
    ∃ shown, value = .object shown ∧
      ShowsMembers addable (whole || hasKind members) members shown := by
  cases h with
  | scalar hscalar => cases hscalar
  | object hkept hadded hperm => exact ⟨_, rfl, _, _, hkept, hadded, hperm⟩

section Records

variable {whole : Bool} {members shown : Fields}

/-- A reader that knows the members finds each of them, or leaves it at its default. -/
theorem ShowsMembers.record? (h : ShowsMembers addable whole members shown)
    (hnodup : (members.map Prod.fst).Nodup) :
    ∃ fields, (Json.object shown).record? (members.map Prod.fst) = some fields ∧
      AllShown addable whole fields members := by
  obtain ⟨kept, added, hkept, hadded, hperm⟩ := h
  have hsublist := hkept.sublist
  -- the members under known names are the ones that are kept
  have hknown : (shown.filter fun m => m.1 ∈ members.map Prod.fst).Perm kept := by
    have hkeptKnown : kept.filter (fun m => m.1 ∈ members.map Prod.fst) = kept :=
      List.filter_eq_self.2 fun m hm =>
        decide_eq_true (hsublist.subset (List.mem_map_of_mem hm))
    have haddedUnknown : added.filter (fun m => m.1 ∈ members.map Prod.fst) = [] :=
      List.filter_eq_nil_iff.2 fun m hm => by simpa using (hadded.isNew m hm).1
    have hfilter := hperm.filter fun m => decide (m.1 ∈ members.map Prod.fst)
    rwa [List.filter_append, hkeptKnown, haddedUnknown, List.append_nil] at hfilter
  have hnames := hknown.map Prod.fst
  have hunique : ((shown.filter fun m => m.1 ∈ members.map Prod.fst).map Prod.fst).Nodup :=
    hnames.nodup_iff.2 (hnodup.sublist hsublist)
  refine ⟨_, ?_, hkept.allShown hunique hnodup (fun m hm => hknown.mem_iff.2 hm) ?_⟩
  · rw [Json.record?, uniqueNames, decide_eq_true hunique]
    rfl
  · exact fun name _ hleft hmem => hleft (hnames.mem_iff.1 hmem)

/-- The kind is found wherever it stands, and the other members are left. -/
theorem ShowsMembers.untag? {kind : String}
    (h : ShowsMembers addable whole (("kind", .string kind) :: members) shown)
    (hkind : "kind" ∉ members.map Prod.fst) :
    ∃ rest, (Json.object shown).untag? = some (.string kind, .object rest) ∧
      ShowsMembers addable whole members rest := by
  obtain ⟨kept, added, hkept, hadded, hperm⟩ := h
  cases hkept with
  | drop hdefault _ => exact absurd hdefault (defaultOf?_ne_string "kind" kind)
  | @keep _ _ _ value _ kept hvalue hkept =>
    cases hvalue with
    | scalar _ =>
      have hothers : ∀ m ∈ kept ++ added, m.1 ≠ "kind" := by
        intro m hm heq
        rcases List.mem_append.1 hm with hm | hm
        · exact hkind (heq ▸ hkept.sublist.subset (List.mem_map_of_mem hm))
        · exact (hadded.isNew m hm).2 heq
      have hnone : (kept ++ added).filter (fun m => m.1 = "kind") = [] :=
        List.filter_eq_nil_iff.2 fun m hm => by simpa using hothers m hm
      have hall : (kept ++ added).filter (fun m => m.1 ≠ "kind") = kept ++ added :=
        List.filter_eq_self.2 fun m hm => by simpa using hothers m hm
      have htag : shown.filter (fun m => m.1 = "kind") = [("kind", .string kind)] := by
        have hfilter := hperm.filter fun m => decide (m.1 = "kind")
        rw [List.cons_append, List.filter_cons_of_pos (by simp), hnone] at hfilter
        exact List.perm_singleton.1 hfilter
      have hrest : (shown.filter fun m => m.1 ≠ "kind").Perm (kept ++ added) := by
        have hfilter := hperm.filter fun m => decide (m.1 ≠ "kind")
        rwa [List.cons_append, List.filter_cons_of_neg (by simp), hall] at hfilter
      have hmember : member? shown "kind" = some (some (.string kind)) := by
        rw [member?, htag]
      refine ⟨shown.filter fun m => m.1 ≠ "kind", ?_, kept, added, hkept, ?_, hrest⟩
      · simp only [Json.untag?, hmember]
      · refine ⟨hadded.nodup, fun m hm => ?_, hadded.isAddable⟩
        exact ⟨fun hmem => (hadded.isNew m hm).1 (List.mem_cons_of_mem _ hmem),
          (hadded.isNew m hm).2⟩

end Records

/-- A record is read from any presentation of it, field by field. -/
theorem Presents.record {whole : Bool} {members : Fields} {value : Json}
    (h : Presents addable whole (.object members) value)
    (hnodup : ("kind" :: members.map Prod.fst).Nodup) :
    ∃ fields, (∀ {names}, members.map Prod.fst = names → value.record? names = some fields) ∧
      AllShown addable whole fields members := by
  obtain ⟨hkind, hnodup⟩ := List.nodup_cons.1 hnodup
  obtain ⟨shown, rfl, hshown⟩ := h.members
  have hwhole : (whole || hasKind members) = whole := by
    rw [hasKind, decide_eq_false hkind, Bool.or_false]
  rw [hwhole] at hshown
  obtain ⟨fields, hrecord, hfields⟩ := hshown.record? hnodup
  exact ⟨fields, fun hnames => hnames ▸ hrecord, hfields⟩

section Tagged

variable {whole : Bool} {kind : String} {members : Fields} {value : Json}

/-- The kind of a presented value is found among its members, wherever it stands. -/
theorem Presents.untag? (h : Presents addable whole (.tagged kind members) value)
    (hkind : "kind" ∉ members.map Prod.fst) :
    ∃ rest, value.untag? = some (.string kind, .object rest) ∧
      ShowsMembers addable true members rest := by
  obtain ⟨shown, rfl, hshown⟩ := h.members
  have hwhole : (whole || hasKind (("kind", .string kind) :: members)) = true := by
    simp [hasKind]
  rw [hwhole] at hshown
  exact hshown.untag? hkind

theorem Presents.tagIsName (h : Presents addable whole (.tagged kind members) value)
    (hkind : "kind" ∉ members.map Prod.fst) : value.tagIsName = true := by
  obtain ⟨rest, huntag, -⟩ := h.untag? hkind
  rw [Json.tagIsName, huntag]

/-- A value is read from any presentation of it, by its kind and then field by field. -/
theorem Presents.tagged (h : Presents addable whole (.tagged kind members) value)
    (hnodup : ("kind" :: members.map Prod.fst).Nodup) :
    ∃ body fields, (∀ {kinds}, kind ∈ kinds → value.variant? kinds = some (kind, body)) ∧
      (∀ {names}, members.map Prod.fst = names → body.record? names = some fields) ∧
      AllShown addable true fields members := by
  obtain ⟨hkind, hnodup⟩ := List.nodup_cons.1 hnodup
  obtain ⟨rest, huntag, hrest⟩ := h.untag? hkind
  obtain ⟨fields, hrecord, hfields⟩ := hrest.record? hnodup
  refine ⟨.object rest, fields, fun hmem => ?_, fun hnames => hnames ▸ hrecord, hfields⟩
  simp [variant?, huntag, kindName?, hmem]

end Tagged

/-! ## Readers -/

/-- The reader takes every presentation of the value for `a`. -/
def Accepts {α : Type} (addable : Bool → Json → Prop) (whole : Bool) (read : Json → Option α)
    (a : α) (value : Json) : Prop :=
  ∀ shown, Presents addable whole value shown → read shown = some a

/-- Scalars are presented as they are. -/
theorem Presents.eq_of_isScalar {whole : Bool} {value shown : Json}
    (h : Presents addable whole value shown) (hscalar : value.isScalar = true) : shown = value := by
  cases h with
  | scalar _ => rfl
  | array _ => cases hscalar
  | object _ _ _ => cases hscalar

theorem Presents.eq_null {whole : Bool} {value : Json}
    (h : Presents addable whole value .null) : value = .null := by
  cases h with
  | scalar _ => rfl

section Accepting

variable {α : Type} {whole : Bool} {read : Json → Option α} {write : α → Json} {a : α}

theorem accepts_scalar {value : Json} (hscalar : value.isScalar = true)
    (hread : read value = some a) : Accepts addable whole read a value := by
  intro shown hshown
  rwa [hshown.eq_of_isScalar hscalar]

theorem accepts_string (s : String) : Accepts addable whole readString s (.string s) :=
  accepts_scalar rfl rfl

/-- Lists are taken in every presentation when their elements are. -/
theorem accepts_list {values : List α}
    (h : ∀ a ∈ values, Accepts addable whole read a (write a)) :
    Accepts addable whole (readList read) values (ofList write values) := by
  have hall : ∀ {values : List α} {shown : List Json},
      (∀ a ∈ values, Accepts addable whole read a (write a)) →
      PresentsAll addable whole (values.map write) shown → shown.mapM read = some values := by
    intro values
    induction values with
    | nil =>
      intro shown _ hshown
      cases hshown
      rfl
    | cons a rest ih =>
      intro shown h hshown
      obtain ⟨ha, hrest⟩ := List.forall_mem_cons.1 h
      cases hshown with
      | cons hfirst hothers => simp [List.mapM_cons, ha _ hfirst, ih hrest hothers]
  intro shown hshown
  cases hshown with
  | scalar hscalar => cases hscalar
  | array hshown => exact hall h hshown

/-- Values that may be absent are taken in every presentation when values are. -/
theorem accepts_option {a : Option α} (h : ∀ b, a = some b → Accepts addable whole read b (write b))
    (hnull : ∀ b, write b ≠ .null) :
    Accepts addable whole (readOption read) a (ofOption write a) := by
  intro shown hshown
  cases a with
  | none =>
    rw [hshown.eq_of_isScalar rfl]
    rfl
  | some b =>
    unfold readOption
    split
    · exact absurd hshown.eq_null (hnull b)
    · rw [h b rfl _ hshown, Option.map_some]

namespace Shown

variable {fields : Fields} {name : String} {value : Json}

/-- A field that must be there is read as what it shows. -/
theorem required (h : Shown addable whole fields name value)
    (hread : Accepts addable whole read a value) (hdefault : defaultOf? name ≠ some value) :
    fields.required name read = some a := by
  rcases h with ⟨shown, hlookup, hshown⟩ | ⟨-, habsent⟩
  · rw [Fields.required, hlookup]
    exact hread shown hshown
  · exact absurd habsent hdefault

theorem mandatory (h : Shown addable whole fields name value)
    (hread : Accepts addable whole read a value) (hname : defaultOf? name = none) :
    fields.required name read = some a :=
  h.required hread (by simp [hname])

/-- A field that may be left out is read as what it shows, or as its default. -/
theorem withDefault {default : α} (h : Shown addable whole fields name value)
    (hread : Accepts addable whole read a value)
    (hdefault : defaultOf? name = some value → default = a) :
    fields.withDefault name default read = some a := by
  rcases h with ⟨shown, hlookup, hshown⟩ | ⟨hlookup, habsent⟩
  · simp only [Fields.withDefault, hlookup]
    exact hread shown hshown
  · simp only [Fields.withDefault, hlookup, hdefault habsent]

theorem string {s : String} (h : Shown addable whole fields name (.string s)) :
    fields.required name readString = some s :=
  h.required (accepts_string s) (defaultOf?_ne_string name s)

theorem list {values : List α} (h : Shown addable whole fields name (ofList write values))
    (hread : Accepts addable whole (readList read) values (ofList write values)) :
    fields.list name read = some values := by
  refine h.withDefault hread fun hdefault => ?_
  have hvalues : values.map write = [] := by simpa [ofList] using defaultOf?_cases hdefault
  exact (List.map_eq_nil_iff.1 hvalues).symm

theorem flag {b : Bool} (h : Shown addable whole fields name (.bool b)) :
    fields.flag name = some b := by
  refine h.withDefault (accepts_scalar rfl rfl) fun hdefault => ?_
  simpa [eq_comm] using defaultOf?_cases hdefault

/-- A field that may be absent is read as what it shows, or as absent. -/
theorem optional {a : Option α} (h : Shown addable whole fields name (ofOption write a))
    (hread : Accepts addable whole (readOption read) a (ofOption write a))
    (hwrite : ∀ b, defaultOf? name ≠ some (write b)) : fields.optional name read = some a := by
  refine h.withDefault hread fun hdefault => ?_
  cases a with
  | none => rfl
  | some b => exact absurd hdefault (hwrite b)

end Shown

end Accepting

/-! ## Nesting -/

/-- Any scalar can be added anywhere. -/
def Anything (_ : Bool) (_ : Json) : Prop :=
  True

/-- Any scalar can be added, but inside a value that is decoded as a whole only one that is
decodable. -/
def DecodableInside (whole : Bool) (value : Json) : Prop :=
  whole = true → value ≠ .undecodable

/-- A scalar that can be decoded fits anywhere. -/
theorem fits_of_isScalar {value : Json} (hscalar : value.isScalar = true)
    (hdecodable : value ≠ .undecodable) (room : Nat) : value.fits room = true := by
  cases value with
  | null | bool _ | natural _ | decimal _ | string _ => simp [fits]
  | array _ | object _ => cases hscalar
  | undecodable => exact absurd rfl hdecodable

mutual

/-- What is decoded as a whole fits if what it presents does. -/
theorem Presents.fits : ∀ {value shown : Json} {room : Nat},
    Presents DecodableInside true value shown → value.fits room = true → shown.fits room = true
  | _, _, _, .scalar _, hfits => hfits
  | _, _, _, .array h, hfits => by
    obtain ⟨inner, rfl⟩ := room_of_array hfits
    rw [fits_array] at hfits ⊢
    exact h.fits hfits
  | _, _, _, .object hkept hadded hperm, hfits => by
    obtain ⟨inner, rfl⟩ := room_of_object hfits
    rw [fits_object] at hfits ⊢
    intro m hm
    rcases List.mem_append.1 (hperm.mem_iff.1 hm) with hm | hm
    · exact hkept.fits hfits m hm
    · obtain ⟨hscalar, hdecodable⟩ := hadded.isAddable m hm
      exact fits_of_isScalar hscalar (hdecodable rfl) inner

theorem PresentsAll.fits : ∀ {elements shown : List Json} {room : Nat},
    PresentsAll DecodableInside true elements shown →
    (∀ element ∈ elements, element.fits room = true) → ∀ element ∈ shown, element.fits room = true
  | _, _, _, .nil, _ => fun _ => nofun
  | _, _, _, .cons h hrest, hfits => by
    obtain ⟨hfirst, hothers⟩ := List.forall_mem_cons.1 hfits
    exact List.forall_mem_cons.2 ⟨h.fits hfirst, hrest.fits hothers⟩

theorem PresentsMembers.fits : ∀ {members kept : Fields} {room : Nat},
    PresentsMembers DecodableInside true members kept → (∀ m ∈ members, m.2.fits room = true) →
    ∀ m ∈ kept, m.2.fits room = true
  | _, _, _, .nil, _ => fun _ => nofun
  | _, _, _, .keep h hrest, hfits => by
    obtain ⟨hfirst, hothers⟩ := List.forall_mem_cons.1 hfits
    exact List.forall_mem_cons.2 ⟨h.fits hfirst, hrest.fits hothers⟩
  | _, _, _, .drop _ hrest, hfits => hrest.fits (List.forall_mem_cons.1 hfits).2

end

/-- A value that carries its kind is decoded as a whole wherever it stands. -/
theorem Presents.whole_of_tagged {whole : Bool} {kind : String} {members : Fields} {shown : Json}
    (h : Presents addable whole (.tagged kind members) shown) :
    Presents addable true (.tagged kind members) shown := by
  have hkind : hasKind (("kind", .string kind) :: members) = true := by simp [hasKind]
  cases h with
  | scalar hscalar => cases hscalar
  | object hkept hadded hperm =>
    rw [hkind, Bool.or_true] at hkept hadded
    exact .object (by rwa [hkind]) (by rwa [hkind]) hperm

end Closedness.Json
