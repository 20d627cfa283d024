import Closedness.Program.Reading
import Closedness.Proofs.JsonText

/-!
# Records that are written can be read

A reader accepts many spellings of a value: fields in any order, by name or by position, with
defaults left out. A writer has one. They go together if the reader takes the writer's spelling for
the value it is written for, and if the writer's spelling nests no deeper than the one that was read
(`Json.Faithful`). The second is not obvious: a list that was left out is written as an empty array,
one level further in. It holds because every record with such a list has a span at the same level.

Values of the kinds that headers are made of nest only so deep, whatever they hold.
-/

namespace Closedness.Json

/-! ## Nesting -/

theorem allFit_iff {elements : List Json} {room : Nat} :
    allFit elements room = true ↔ ∀ element ∈ elements, element.fits room = true := by
  induction elements with
  | nil => simp [allFit]
  | cons element rest ih => simp [allFit, ih]

theorem membersFit_iff {members : List (String × Json)} {room : Nat} :
    membersFit members room = true ↔ ∀ m ∈ members, m.2.fits room = true := by
  induction members with
  | nil => simp [membersFit]
  | cons m rest ih =>
    obtain ⟨name, value⟩ := m
    simp [membersFit, ih]

/-- An array fits when there is room for one level more than its elements need. -/
theorem fits_array {elements : List Json} {room : Nat} :
    (Json.array elements).fits (room + 1) = true ↔
      ∀ element ∈ elements, element.fits room = true := by
  rw [fits, allFit_iff]

theorem fits_ofList {α : Type} {write : α → Json} {values : List α} {room : Nat} :
    (Json.ofList write values).fits (room + 1) = true ↔
      ∀ a ∈ values, (write a).fits room = true := by
  rw [ofList, fits_array, List.forall_mem_map]

/-- An object fits when there is room for one level more than its members need. -/
@[simp] theorem fits_object {members : List (String × Json)} {room : Nat} :
    (Json.object members).fits (room + 1) = true ↔ ∀ m ∈ members, m.2.fits room = true := by
  rw [fits, membersFit_iff]

/-- The kind of a value takes no room of its own. -/
@[simp] theorem fits_tagged {kind : String} {fields : List (String × Json)} {room : Nat} :
    (Json.tagged kind fields).fits (room + 1) = true ↔ ∀ m ∈ fields, m.2.fits room = true := by
  have hkind : (Json.string kind).fits room = true := by cases room <;> rfl
  rw [tagged, fits, membersFit, hkind, Bool.true_and, membersFit_iff]

/-- An array or object that fits leaves room for what it holds. -/
theorem room_of_array {elements : List Json} {room : Nat}
    (h : (Json.array elements).fits room = true) : ∃ inner, room = inner + 1 := by
  cases room with
  | zero => cases h
  | succ inner => exact ⟨inner, rfl⟩

theorem room_of_object {members : List (String × Json)} {room : Nat}
    (h : (Json.object members).fits room = true) : ∃ inner, room = inner + 1 := by
  cases room with
  | zero => cases h
  | succ inner => exact ⟨inner, rfl⟩

/-- What fits also fits into more room. -/
theorem fits_of_le : ∀ {value : Json} {room more : Nat}, room ≤ more → value.fits room = true →
    value.fits more = true
  | .null, _, _, _, _ | .bool _, _, _, _, _ | .natural _, _, _, _, _ | .decimal _, _, _, _, _
  | .string _, _, _, _, _ => by simp [fits]
  | .undecodable, _, _, _, h => by cases h
  | .array elements, room, more, hle, h => by
    obtain ⟨inner, rfl⟩ := room_of_array h
    obtain ⟨inner', rfl⟩ : ∃ inner', more = inner' + 1 := ⟨more - 1, by omega⟩
    rw [fits_array] at h ⊢
    intro element helement
    exact fits_of_le (Nat.le_of_succ_le_succ hle) (h element helement)
  | .object members, room, more, hle, h => by
    obtain ⟨inner, rfl⟩ := room_of_object h
    obtain ⟨inner', rfl⟩ : ∃ inner', more = inner' + 1 := ⟨more - 1, by omega⟩
    rw [fits_object] at h ⊢
    intro m hm
    exact fits_of_le (Nat.le_of_succ_le_succ hle) (h m hm)
termination_by value => sizeOf value
decreasing_by
  · have := List.sizeOf_lt_of_mem helement
    simp
    omega
  · have := List.sizeOf_lt_of_mem hm
    obtain ⟨name, value⟩ := m
    simp at this ⊢
    omega

@[simp] theorem fits_null (room : Nat) : Json.null.fits room = true := by
  cases room <;> rfl

@[simp] theorem fits_bool (b : Bool) (room : Nat) : (Json.bool b).fits room = true := by
  cases room <;> rfl

@[simp] theorem fits_natural (n room : Nat) : (Json.natural n).fits room = true := by
  cases room <;> rfl

@[simp] theorem fits_string (s : String) (room : Nat) : (Json.string s).fits room = true := by
  cases room <;> rfl

/-! ## Fields -/

/-- Every field fits. -/
def Fields.Fit (fields : Fields) (room : Nat) : Prop :=
  ∀ m ∈ fields, m.2.fits room = true

/-- The fields of a record that fits have one level less. -/
theorem fit_of_record? {value : Json} {names : List String} {fields : Fields} {room : Nat}
    (h : value.record? names = some fields) (hfits : value.fits room = true) :
    ∃ inner, room = inner + 1 ∧ fields.Fit inner := by
  unfold record? at h
  split at h
  · next members =>
    obtain ⟨inner, rfl⟩ := room_of_object hfits
    rw [fits_object] at hfits
    simp only at h
    split at h
    · cases h
      exact ⟨inner, rfl, fun m hm => hfits m (List.mem_of_mem_filter hm)⟩
    · cases h
  · next elements =>
    obtain ⟨inner, rfl⟩ := room_of_array hfits
    rw [fits_array] at hfits
    split at h
    · cases h
      exact ⟨inner, rfl, fun m hm => hfits m.2 (List.of_mem_zip hm).2⟩
    · cases h
  · cases h

/-- Without its kind a value nests no deeper. -/
theorem fits_of_variant? {value body : Json} {kinds : List String} {kind : String} {room : Nat}
    (h : value.variant? kinds = some (kind, body)) (hfits : value.fits room = true) :
    body.fits room = true := by
  simp only [variant?, bind, Option.bind_eq_some_iff] at h
  obtain ⟨⟨tag, fields⟩, huntag, h⟩ := h
  obtain ⟨name, -, h⟩ := h
  cases h
  unfold untag? at huntag
  split at huntag
  · split at huntag
    · cases huntag
      obtain ⟨inner, rfl⟩ := room_of_object hfits
      rw [fits_object] at hfits ⊢
      exact fun m hm => hfits m (List.mem_of_mem_filter hm)
    · cases huntag
  · cases huntag
    obtain ⟨inner, rfl⟩ := room_of_array hfits
    rw [fits_array] at hfits ⊢
    exact fun element helement => hfits element (List.mem_cons_of_mem _ helement)
  · cases huntag

/-- A field that is found fits where the fields do. -/
theorem Fields.Fit.lookup {fields : Fields} {room : Nat} (h : fields.Fit room) {name : String}
    {value : Json} (hvalue : fields.lookup name = some value) : value.fits room = true := by
  induction fields with
  | nil => cases hvalue
  | cons m rest ih =>
    obtain ⟨key, first⟩ := m
    rw [List.lookup_cons] at hvalue
    split at hvalue
    · cases hvalue
      exact h _ List.mem_cons_self
    · exact ih (fun m hm => h m (List.mem_cons_of_mem _ hm)) hvalue

@[simp] theorem Fields.required_cons {α : Type} (key name : String) (value : Json) (rest : Fields)
    (read : Json → Option α) :
    Fields.required ((key, value) :: rest) name read
      = if name = key then read value else Fields.required rest name read := by
  by_cases h : name = key
  · simp [required, h]
  · simp [required, List.lookup_cons, beq_false_of_ne h, h]

@[simp] theorem Fields.withDefault_cons {α : Type} (key name : String) (value : Json)
    (rest : Fields) (default : α) (read : Json → Option α) :
    Fields.withDefault ((key, value) :: rest) name default read
      = if name = key then read value else Fields.withDefault rest name default read := by
  by_cases h : name = key
  · simp [withDefault, h]
  · simp [withDefault, List.lookup_cons, beq_false_of_ne h, h]

@[simp] theorem Fields.list_cons {α : Type} (key name : String) (value : Json) (rest : Fields)
    (read : Json → Option α) :
    Fields.list ((key, value) :: rest) name read
      = if name = key then readList read value else Fields.list rest name read :=
  withDefault_cons ..

@[simp] theorem Fields.flag_cons (key name : String) (value : Json) (rest : Fields) :
    Fields.flag ((key, value) :: rest) name
      = if name = key then readBool value else Fields.flag rest name :=
  withDefault_cons ..

@[simp] theorem Fields.optional_cons {α : Type} (key name : String) (value : Json) (rest : Fields)
    (read : Json → Option α) :
    Fields.optional ((key, value) :: rest) name read
      = if name = key then readOption read value else Fields.optional rest name read :=
  withDefault_cons ..

/-- A record that is written by name has the fields it is written with. -/
@[simp] theorem record?_object {names : List String} {fields : Fields}
    (h : fields.map Prod.fst = names) (hnames : names.Nodup) :
    (Json.object fields).record? names = some fields := by
  have hknown : fields.filter (fun m => m.1 ∈ names) = fields := by
    refine List.filter_eq_self.2 fun m hm => ?_
    exact decide_eq_true (h ▸ List.mem_map_of_mem hm)
  have hunique : uniqueNames fields = true := decide_eq_true (h ▸ hnames)
  rw [record?, hknown, hunique]
  rfl

/-- The kind and the other fields of a tagged value can be told apart again. -/
theorem untag?_tagged (kind : String) {fields : Fields} (hfields : "kind" ∉ fields.map Prod.fst) :
    (Json.tagged kind fields).untag? = some (.string kind, .object fields) := by
  have hothers : ∀ m ∈ fields, m.1 ≠ "kind" := fun m hm heq =>
    hfields (heq ▸ List.mem_map_of_mem hm)
  have hnone : fields.filter (fun m => m.1 = "kind") = [] :=
    List.filter_eq_nil_iff.2 fun m hm => by simpa using hothers m hm
  have hall : fields.filter (fun m => m.1 ≠ "kind") = fields :=
    List.filter_eq_self.2 fun m hm => by simpa using hothers m hm
  have hmember : member? (("kind", .string kind) :: fields) "kind"
      = some (some (.string kind)) := by
    simp [member?, hnone]
  have hrest : (("kind", Json.string kind) :: fields).filter (fun m => m.1 ≠ "kind") = fields := by
    rw [List.filter_cons_of_neg (by simp), hall]
  simp only [tagged, untag?, hmember, hrest]

/-- A value of a kind is written with the kind before its fields. -/
@[simp] theorem variant?_tagged {kinds : List String} {kind : String} {fields : Fields}
    (h : kind ∈ kinds) (hfields : "kind" ∉ fields.map Prod.fst) :
    (Json.tagged kind fields).variant? kinds = some (kind, .object fields) := by
  simp [variant?, untag?_tagged kind hfields, kindName?, h]

/-- The kind is written by its name. -/
@[simp] theorem tagIsName_tagged {kind : String} {fields : Fields}
    (hfields : "kind" ∉ fields.map Prod.fst) : (Json.tagged kind fields).tagIsName = true := by
  rw [tagIsName, untag?_tagged kind hfields]

/-! ## Readers and writers that go together -/

/-- What is read is written so that it nests no deeper, and what is written can be read within
`room`. -/
structure Faithful {α : Type} (room : Nat) (read : Json → Option α) (write : α → Json) : Prop where
  keepsFit : ∀ {value : Json} {a : α} {n : Nat}, read value = some a → value.fits n = true →
    (write a).fits n = true
  readsBack : ∀ {a : α}, (write a).fits room = true → read (write a) = some a

namespace Faithful

variable {α : Type} {room : Nat} {read : Json → Option α} {write : α → Json}

/-- A list is read back when its elements are. -/
theorem mapM_readsBack {values : List α} (h : ∀ a ∈ values, read (write a) = some a) :
    (values.map write).mapM read = some values := by
  induction values with
  | nil => rfl
  | cons a rest ih =>
    have hrest := ih fun b hb => h b (List.mem_cons_of_mem _ hb)
    simp [List.mapM_cons, h a List.mem_cons_self, hrest]

theorem mem_of_mapM {values : List α} {elements : List Json}
    (h : elements.mapM read = some values) {a : α} (ha : a ∈ values) :
    ∃ element ∈ elements, read element = some a := by
  induction elements generalizing values with
  | nil =>
    cases h
    cases ha
  | cons element rest ih =>
    simp only [List.mapM_cons, bind, Option.bind_eq_some_iff] at h
    obtain ⟨first, hfirst, others, hothers, h⟩ := h
    cases h
    rcases List.mem_cons.1 ha with rfl | ha
    · exact ⟨element, List.mem_cons_self, hfirst⟩
    · obtain ⟨element', helement', hread⟩ := ih hothers ha
      exact ⟨element', List.mem_cons_of_mem _ helement', hread⟩

/-- A reader and a writer that go together do so in less room. -/
theorem mono {less : Nat} (h : Faithful room read write) (hle : less ≤ room) :
    Faithful less read write where
  keepsFit := h.keepsFit
  readsBack := fun hfits => h.readsBack (fits_of_le hle hfits)

/-- Lists of values are written and read one level deeper. -/
theorem list (h : Faithful room read write) :
    Faithful (room + 1) (readList read) (ofList write) where
  keepsFit := by
    intro value values n hread hfits
    unfold readList at hread
    split at hread
    · obtain ⟨inner, rfl⟩ := room_of_array hfits
      rw [fits_array] at hfits
      rw [fits_ofList]
      intro a ha
      obtain ⟨source, hsource, hread⟩ := mem_of_mapM hread ha
      exact h.keepsFit hread (hfits source hsource)
    · cases hread
  readsBack := by
    intro values hfits
    rw [fits_ofList] at hfits
    exact mapM_readsBack fun a ha => h.readsBack (hfits a ha)

theorem option_readsBack (hnull : ∀ a, write a ≠ .null) {a : Option α}
    (h : ∀ b, a = some b → read (write b) = some b) :
    readOption read (ofOption write a) = some a := by
  cases a with
  | none => rfl
  | some b =>
    unfold ofOption readOption
    split
    · next hwrite => exact absurd hwrite (hnull b)
    · rw [h b rfl, Option.map_some]

theorem option (h : Faithful room read write) (hnull : ∀ a, write a ≠ .null) :
    Faithful room (readOption read) (ofOption write) where
  keepsFit := by
    intro value a n hread hfits
    unfold readOption at hread
    split at hread
    · cases hread
      exact fits_null n
    · obtain ⟨b, hb, rfl⟩ := Option.map_eq_some_iff.1 hread
      exact h.keepsFit hb hfits
  readsBack := by
    intro a hfits
    exact option_readsBack hnull fun b hb => h.readsBack (by rw [hb] at hfits; exact hfits)

variable {fields : Fields} {inner : Nat} {name : String}

/-- What is read from a field fits where the fields do. -/
theorem required (h : Faithful room read write) (hfit : fields.Fit inner) {a : α}
    (ha : fields.required name read = some a) : (write a).fits inner = true := by
  obtain ⟨value, hvalue, hread⟩ := Option.bind_eq_some_iff.1 ha
  exact h.keepsFit hread (hfit.lookup hvalue)

theorem withDefault (h : Faithful room read write) (hfit : fields.Fit inner) {a default : α}
    (hdefault : (write default).fits inner = true)
    (ha : fields.withDefault name default read = some a) : (write a).fits inner = true := by
  unfold Fields.withDefault at ha
  split at ha
  · cases ha
    exact hdefault
  · next value hvalue => exact h.keepsFit ha (hfit.lookup hvalue)

/-- The same for a field that may be absent. -/
theorem optional (h : Faithful room read write) (hnull : ∀ a, write a ≠ .null)
    (hfit : fields.Fit inner) {a : Option α} (ha : fields.optional name read = some a) :
    (ofOption write a).fits inner = true := by
  have hnone : (ofOption write none).fits inner = true := fits_null inner
  exact (h.option hnull).withDefault hfit hnone ha

/-- A list that may be left out needs one level even then. -/
theorem defaulted (h : Faithful room read write) (hfit : fields.Fit inner) (hinner : 0 < inner)
    {values : List α} (ha : fields.list name read = some values) :
    (ofList write values).fits inner = true := by
  have hempty : (ofList write []).fits inner = true := by
    obtain ⟨deeper, rfl⟩ : ∃ deeper, inner = deeper + 1 := ⟨inner - 1, by omega⟩
    rfl
  exact h.list.withDefault hfit hempty ha

end Faithful

theorem readList_ofList {α : Type} {read : Json → Option α} {write : α → Json}
    (h : ∀ a, read (write a) = some a) (values : List α) :
    readList read (ofList write values) = some values :=
  Faithful.mapM_readsBack fun a _ => h a

@[simp] theorem readOption_string (s : Option String) :
    readOption readString (ofOption .string s) = some s := by
  cases s <;> rfl

@[simp] theorem readString_string (s : String) : readString (.string s) = some s := rfl

@[simp] theorem readBool_bool (b : Bool) : readBool (.bool b) = some b := rfl

theorem readString_faithful (room : Nat) : Faithful room readString .string where
  keepsFit := by
    intro value s n _ _
    exact fits_string s n
  readsBack := fun _ => rfl

@[simp] theorem readUInt32_toNat (n : UInt32) : readUInt32 (.natural n.toNat) = some n := by
  rw [readUInt32, dif_pos n.toNat_lt_size, UInt32.ofNatLT_toNat]

@[simp] theorem readUInt64_toNat (n : UInt64) : readUInt64 (.natural n.toNat) = some n := by
  rw [readUInt64, dif_pos n.toNat_lt_size, UInt64.ofNatLT_toNat]

/-! ## Writing -/

@[simp] theorem writable_null : Json.null.Writable := trivial

@[simp] theorem writable_string (s : String) : (Json.string s).Writable := trivial

@[simp] theorem writable_bool (b : Bool) : (Json.bool b).Writable := trivial

@[simp] theorem writable_uint32 (n : UInt32) : (Json.natural n.toNat).Writable := by
  have hlt : n.toNat < 2 ^ 32 := n.toNat_lt
  show n.toNat ≤ 0xFFFFFFFFFFFFFFFF
  omega

@[simp] theorem writable_uint64 (n : UInt64) : (Json.natural n.toNat).Writable := by
  have hlt : n.toNat < 2 ^ 64 := n.toNat_lt
  show n.toNat ≤ 0xFFFFFFFFFFFFFFFF
  omega

@[simp] theorem writable_object_cons (name : String) (value : Json) (rest : List (String × Json)) :
    (Json.object ((name, value) :: rest)).Writable ↔ value.Writable ∧ (Json.object rest).Writable :=
  Iff.rfl

@[simp] theorem writable_object_nil : (Json.object []).Writable := trivial

@[simp] theorem writable_tagged (kind : String) (fields : List (String × Json)) :
    (Json.tagged kind fields).Writable ↔ (Json.object fields).Writable := by
  simp [tagged]

@[simp] theorem writable_ofOption_string (s : Option String) :
    (Json.ofOption .string s).Writable := by
  cases s <;> trivial

@[simp] theorem writable_ofList {α : Type} {write : α → Json} (h : ∀ a, (write a).Writable)
    (values : List α) : (Json.ofList write values).Writable := by
  induction values with
  | nil => trivial
  | cons a rest ih => exact ⟨h a, ih⟩

end Closedness.Json

namespace Closedness

open Json (Faithful Fields)

/-! ## Spans, ids and annotations -/

@[simp] theorem DeclId.fits_toJson (id : DeclId) (room : Nat) : id.toJson.fits room = true :=
  Json.fits_natural _ room

@[simp] theorem DeclId.ofJson?_toJson (id : DeclId) : DeclId.ofJson? id.toJson = some id := by
  rw [toJson, ofJson?, Json.readUInt32_toNat, Option.map_some]

@[simp] theorem Span.ofJson?_toJson (s : Span) : Span.ofJson? s.toJson = some s := by
  simp [ofJson?, toJson, fieldNames]

@[simp] theorem Annot.ofJson?_toJson (a : Annot) : Annot.ofJson? a.toJson = some a := by
  simp [ofJson?, toJson]

@[simp] theorem Annot.readList_ofList (annots : List Annot) :
    Json.readList Annot.ofJson? (.ofList Annot.toJson annots) = some annots :=
  Json.readList_ofList Annot.ofJson?_toJson annots

/-- Places are read and written faithfully: a field that is left out is written with its default,
which nests no deeper. -/
theorem Span.faithful (room : Nat) : Faithful room Span.ofJson? Span.toJson where
  keepsFit := by
    intro value s n hread hfits
    simp only [ofJson?, bind, Option.bind_eq_some_iff] at hread
    obtain ⟨fields, hfields, -⟩ := hread
    obtain ⟨inner, rfl, -⟩ := Json.fit_of_record? hfields hfits
    simp [toJson]
  readsBack := fun _ => Span.ofJson?_toJson _

theorem Json.Fields.Fit.span {fields : Fields} {room : Nat} (h : fields.Fit room) {s : Span}
    (hs : fields.required "span" Span.ofJson? = some s) : s.toJson.fits room = true :=
  (Span.faithful room).required h hs

theorem Span.room_of_fits {s : Span} {room : Nat} (h : s.toJson.fits room = true) : 0 < room := by
  obtain ⟨inner, rfl⟩ := Json.room_of_object h
  exact Nat.succ_pos inner

/-- Annotations are read and written faithfully. -/
theorem Annot.faithful (room : Nat) : Faithful room Annot.ofJson? Annot.toJson where
  keepsFit := by
    intro value a n hread hfits
    simp only [ofJson?, bind, Option.bind_eq_some_iff] at hread
    obtain ⟨fields, hfields, name, -, span, hspan, h⟩ := hread
    cases h
    obtain ⟨inner, rfl, hfit⟩ := Json.fit_of_record? hfields hfits
    have hspan := hfit.span hspan
    simp [toJson, hspan]
  readsBack := fun _ => Annot.ofJson?_toJson _

/-! ## Declarations -/

theorem Component.ofJson?_toJson (c : Component) : Component.ofJson? c.toJson = some c := by
  simp [ofJson?, toJson]

theorem Param.ofJson?_toJson (p : Param) : Param.ofJson? p.toJson = some p := by
  simp [ofJson?, toJson]

@[simp] theorem LocalDecl.ofJson?_toJson (d : LocalDecl) :
    LocalDecl.ofJson? d.toJson = some d := by
  simp [ofJson?, toJson]

@[simp] theorem PatternVar.ofJson?_toJson (v : PatternVar) :
    PatternVar.ofJson? v.toJson = some v := by
  simp [ofJson?, toJson]

/-- Declarations of local variables are read and written faithfully. -/
theorem LocalDecl.faithful (room : Nat) : Faithful room LocalDecl.ofJson? LocalDecl.toJson where
  keepsFit := by
    intro value d n hread hfits
    simp only [ofJson?, bind, Option.bind_eq_some_iff] at hread
    obtain ⟨fields, hfields, id, -, name, -, type, htype, annots, hannots, span, hspan, h⟩ := hread
    cases h
    obtain ⟨inner, rfl, hfit⟩ := Json.fit_of_record? hfields hfits
    have hspan := hfit.span hspan
    have htype := (Json.readString_faithful room).optional (fun _ => nofun) hfit htype
    have hannots := (Annot.faithful room).defaulted hfit (Span.room_of_fits hspan) hannots
    simp [toJson, hspan, htype, hannots]
  readsBack := fun _ => LocalDecl.ofJson?_toJson _

/-- Pattern variables are read and written faithfully. -/
theorem PatternVar.faithful (room : Nat) :
    Faithful room PatternVar.ofJson? PatternVar.toJson where
  keepsFit := by
    intro value v n hread hfits
    simp only [ofJson?, bind, Option.bind_eq_some_iff] at hread
    obtain ⟨fields, hfields, id, -, name, -, annots, hannots, span, hspan, h⟩ := hread
    cases h
    obtain ⟨inner, rfl, hfit⟩ := Json.fit_of_record? hfields hfits
    have hspan := hfit.span hspan
    have hannots := (Annot.faithful room).defaulted hfit (Span.room_of_fits hspan) hannots
    simp [toJson, hspan, hannots]
  readsBack := fun _ => PatternVar.ofJson?_toJson _

/-! ## Headers are written -/

@[simp] theorem DeclId.writable_toJson (id : DeclId) : id.toJson.Writable :=
  Json.writable_uint32 id.val

@[simp] theorem Span.writable_toJson (s : Span) : s.toJson.Writable := by
  simp [toJson]

@[simp] theorem Annot.writable_toJson (a : Annot) : a.toJson.Writable := by
  simp [toJson]

@[simp] theorem Component.writable_toJson (c : Component) : c.toJson.Writable := by
  simp [toJson]

@[simp] theorem Param.writable_toJson (p : Param) : p.toJson.Writable := by
  simp [toJson]

@[simp] theorem LocalDecl.writable_toJson (d : LocalDecl) : d.toJson.Writable := by
  simp [toJson]

@[simp] theorem PatternVar.writable_toJson (v : PatternVar) : v.toJson.Writable := by
  simp [toJson]

/-! ## How deep headers nest -/

@[simp] theorem Json.fits_ofOption_string (s : Option String) (room : Nat) :
    (Json.ofOption .string s).fits room = true := by
  cases s with
  | none => exact Json.fits_null room
  | some s => exact Json.fits_string s room

@[simp] theorem Span.fits_toJson (s : Span) (room : Nat) : s.toJson.fits (room + 1) = true := by
  simp [toJson]

@[simp] theorem Annot.fits_toJson (a : Annot) (room : Nat) : a.toJson.fits (room + 2) = true := by
  simp [toJson]

theorem Component.fits_toJson (c : Component) (room : Nat) : c.toJson.fits (room + 4) = true := by
  simp [toJson, Json.fits_ofList]

theorem Param.fits_toJson (p : Param) (room : Nat) : p.toJson.fits (room + 4) = true := by
  simp [toJson, Json.fits_ofList]

end Closedness
