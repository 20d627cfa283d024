import Closedness.Program.Validation
import Closedness.Proofs.BodyCodecs

/-!
# Units that are written can be read

A unit that a text denotes is written as a text that denotes the same unit, within the limit on
nesting (`CompilationUnit.text_round_trip`). Members that a reader does not know may hold anything,
so how deep the text nests says nothing about the headers it denotes. These nest only a few levels
of themselves, and the statements of a body, which may nest as deep as they like, are the one part
whose nesting is checked against the limit when they are read (`Json.Within`).
-/

namespace Closedness

open Json (Faithful Fields)

namespace Json

/-- What is read is written within `room`, and what is written within `room` can be read. -/
structure Within {α : Type} (room : Nat) (read : Json → Option α) (write : α → Json) : Prop where
  fits : ∀ {value : Json} {a : α}, read value = some a → (write a).fits room = true
  readsBack : ∀ {a : α}, (write a).fits room = true → read (write a) = some a

/-- What is decoded as a whole is checked to fit. -/
theorem Faithful.whole {α : Type} {room : Nat} {read : Nat → Json → Option α} {write : α → Json}
    (h : Faithful room (read room) write) (htag : ∀ a, (write a).tagIsName = true) :
    Within room (readWhole read room) write where
  fits := by
    intro value a hread
    unfold readWhole at hread
    split at hread
    · next hchecked =>
      rw [Bool.and_eq_true] at hchecked
      exact h.keepsFit hread hchecked.1
    · cases hread
  readsBack := by
    intro a hfits
    rw [readWhole, hfits, htag a]
    exact h.readsBack hfits

namespace Within

variable {α : Type} {room : Nat} {read : Json → Option α} {write : α → Json}

theorem list (h : Within room read write) :
    Within (room + 1) (readList read) (ofList write) where
  fits := by
    intro value values hread
    unfold readList at hread
    split at hread
    · rw [fits_ofList]
      intro a ha
      obtain ⟨source, -, hread⟩ := Faithful.mem_of_mapM hread ha
      exact h.fits hread
    · cases hread
  readsBack := by
    intro values hfits
    rw [fits_ofList] at hfits
    exact Faithful.mapM_readsBack fun a ha => h.readsBack (hfits a ha)

theorem option (h : Within room read write) (hnull : ∀ a, write a ≠ .null) :
    Within room (readOption read) (ofOption write) where
  fits := by
    intro value a hread
    unfold readOption at hread
    split at hread
    · cases hread
      exact fits_null room
    · obtain ⟨b, hb, rfl⟩ := Option.map_eq_some_iff.1 hread
      exact h.fits hb
  readsBack := by
    intro a hfits
    exact Faithful.option_readsBack hnull fun b hb => h.readsBack (by rw [hb] at hfits; exact hfits)

variable {fields : Fields} {name : String}

/-- What is read from a field is written within room, whatever the fields are. -/
theorem required (h : Within room read write) {a : α}
    (ha : fields.required name read = some a) : (write a).fits room = true := by
  obtain ⟨value, -, hread⟩ := Option.bind_eq_some_iff.1 ha
  exact h.fits hread

theorem withDefault (h : Within room read write) {a default : α}
    (hdefault : (write default).fits room = true)
    (ha : fields.withDefault name default read = some a) : (write a).fits room = true := by
  unfold Fields.withDefault at ha
  split at ha
  · cases ha
    exact hdefault
  · exact h.fits ha

end Within

end Json

open Json (Within)

/-! ## Methods -/

theorem Stmt.tagIsName_toJson (s : Stmt) : s.toJson.tagIsName = true := by
  cases s <;> simp [toJson]

/-- What is read of a block fits, as its statements do. -/
theorem Block.within {room : Nat} {read : Json → Option Stmt} (h : Within room read Stmt.toJson) :
    Within (room + 2) (Block.ofJsonWith? read) Block.toJson where
  fits := by
    intro value block hread
    simp only [ofJsonWith?, bind, Option.bind_eq_some_iff] at hread
    obtain ⟨fields, -, stmts, hstmts, span, -, hblock⟩ := hread
    cases hblock
    have hstmts := h.list.required hstmts
    simp [toJson, hstmts]
  readsBack := by
    intro block hfits
    obtain ⟨stmts, span⟩ := block
    simp [toJson] at hfits
    exact ofJsonWith?_toJson (h.list.readsBack hfits) span

@[simp] theorem Param.readList_ofList (params : List Param) :
    Json.readList Param.ofJson? (.ofList Param.toJson params) = some params :=
  Json.readList_ofList Param.ofJson?_toJson params

/-- The statements of a method's body start three levels inside the method. -/
theorem Method.within {room : Nat} (h : 6 ≤ room) :
    Within room (Method.ofJson? room) Method.toJson := by
  obtain ⟨room, rfl⟩ : ∃ inner, room = inner + 6 := ⟨room - 6, by omega⟩
  have hstmt := (bodies_faithful (room + 3)).stmt.whole Stmt.tagIsName_toJson
  have hbody := (Block.within hstmt).option Block.toJson_ne_null
  constructor
  · intro value m hread
    simp only [ofJson?, bind, Option.bind_eq_some_iff] at hread
    obtain ⟨fields, -, id, -, name, -, isStatic, -, annots, -, returnType, -, params, -, body,
      hread, span, -, hm⟩ := hread
    cases hm
    have hnone : (Json.ofOption Block.toJson none).fits (room + 5) = true := Json.fits_null _
    have hwritten := hbody.withDefault hnone hread
    simp [toJson, Json.fits_ofList, Param.fits_toJson, hwritten]
  · intro m hfits
    simp [toJson] at hfits
    simp [ofJson?, toJson, hbody.readsBack, hfits]

/-! ## Types -/

theorem TypeShape.tagIsName_toJson (shape : TypeShape) : shape.toJson.tagIsName = true := by
  cases shape <;> simp [toJson]

@[simp] theorem TypeShape.ofJson?_toJson (shape : TypeShape) :
    TypeShape.ofJson? shape.toJson = some shape := by
  cases shape with
  | record components =>
    have hcomponents := Json.readList_ofList Component.ofJson?_toJson components
    simp [ofJson?, toJson, kinds, hcomponents]
  | _ => simp [ofJson?, toJson, kinds]

theorem TypeShape.fits_toJson (shape : TypeShape) (room : Nat) :
    shape.toJson.fits (room + 6) = true := by
  cases shape <;> simp [toJson, Json.fits_ofList, Component.fits_toJson]

@[simp] theorem Json.readList_string (strings : List String) :
    Json.readList Json.readString (.ofList .string strings) = some strings :=
  Json.readList_ofList Json.readString_string strings

/-- What is read of a type fits, and is read back. -/
theorem TypeDecl.within {room : Nat} (h : 8 ≤ room) :
    Within room (TypeDecl.ofJson? room) TypeDecl.toJson := by
  obtain ⟨room, rfl⟩ : ∃ inner, room = inner + 8 := ⟨room - 8, by omega⟩
  have hmethods := (Method.within (Nat.le_add_left 6 room)).list
  constructor
  · intro value t hread
    simp only [ofJson?, bind, Option.bind_eq_some_iff] at hread
    obtain ⟨fields, -, id, -, name, -, annots, -, shape, -, supertypes, -, methods, hread, span, -,
      ht⟩ := hread
    cases ht
    have hwritten := hmethods.withDefault rfl hread
    have hshape := shape.fits_toJson (room + 1)
    simp [toJson, Json.fits_ofList, hshape, hwritten]
  · intro t hfits
    simp [toJson] at hfits
    have hshape : Json.readWhole (fun _ => TypeShape.ofJson?) (room + 7) t.shape.toJson
        = some t.shape := by
      rw [Json.readWhole, t.shape.fits_toJson, t.shape.tagIsName_toJson]
      exact t.shape.ofJson?_toJson
    simp [ofJson?, toJson, hshape, hmethods.readsBack, hfits]

/-! ## Units -/

@[simp] theorem Method.writable_toJson (m : Method) : m.toJson.Writable := by
  have hbody := Block.writable_optionToJson m.body
  simpa [toJson] using hbody

@[simp] theorem TypeShape.writable_toJson (shape : TypeShape) : shape.toJson.Writable := by
  cases shape <;> simp [toJson]

@[simp] theorem TypeDecl.writable_toJson (t : TypeDecl) : t.toJson.Writable := by
  simp [toJson]

namespace CompilationUnit

/-- Every unit can be printed and parsed. -/
theorem writable_toJson (u : CompilationUnit) : u.toJson.Writable := by
  simp [toJson]

/-- What is read of a unit fits into the limit, and what fits is read back. -/
theorem within : Within nestingLimit ofJson? toJson := by
  have htypes := (TypeDecl.within (show 8 ≤ 125 by decide)).list
  have hmethods := (Method.within (show 6 ≤ 125 by decide)).list
  constructor
  · intro value u hread
    simp only [ofJson?, bind, Option.bind_eq_some_iff] at hread
    obtain ⟨fields, -, name, -, types, hreadTypes, methods, hreadMethods, hu⟩ := hread
    cases hu
    have hwrittenTypes := htypes.withDefault rfl hreadTypes
    have hwrittenMethods := hmethods.withDefault rfl hreadMethods
    simp [toJson, nestingLimit, hwrittenTypes, hwrittenMethods]
  · intro u hfits
    simp [toJson, nestingLimit] at hfits
    simp [ofJson?, toJson, nestingLimit, htypes.readsBack, hmethods.readsBack, hfits]

/-- The text of a unit denotes the unit if it does not nest too deep. -/
theorem parse?_toText {u : CompilationUnit} (h : u.toJson.fits nestingLimit = true) :
    parse? u.toText = some u := by
  rw [parse?, toText, Json.parse?_pretty u.writable_toJson, Option.bind_some]
  exact within.readsBack h

/-- Units that are read do not nest too deep when they are written. -/
theorem fits_of_parse? {text : String} {u : CompilationUnit} (h : parse? text = some u) :
    u.toJson.fits nestingLimit = true := by
  obtain ⟨value, -, hread⟩ := Option.bind_eq_some_iff.1 h
  exact within.fits hread

/-- Loading the text of a unit that fits validates that unit. -/
theorem load_toText {u : CompilationUnit} (h : u.toJson.fits nestingLimit = true)
    (reason : String → String) : load reason u.toText = u.validate := by
  rw [load, read, parse?_toText h]
  rfl

/-- Validation hands the unit on as it is. -/
theorem eq_of_validate {u v : CompilationUnit} (h : u.validate = .ok v) : v = u := by
  unfold validate at h
  split at h
  · cases h
    rfl
  · cases h

/-- A text is loaded as the unit it denotes, if that unit is valid. -/
theorem load_eq_ok_iff {reason : String → String} {text : String} {u : CompilationUnit} :
    load reason text = .ok u ↔ parse? text = some u ∧ u.validate = .ok u := by
  unfold load read
  cases hparse : parse? text with
  | none => simp [Except.bind]
  | some v =>
    simp only [Except.bind, Option.some.injEq]
    constructor
    · intro hvalid
      have huv : u = v := eq_of_validate hvalid
      exact ⟨huv.symm, huv ▸ hvalid⟩
    · rintro ⟨rfl, hvalid⟩
      exact hvalid

/-- **A unit is read from the text it is written as.** The text of a unit that was read stays within
the limit on nesting, however the unit was written before, and denotes the same unit; and so does
the text of any unit that stays within the limit. -/
theorem text_round_trip :
    (∀ (text : String) (u : CompilationUnit), parse? text = some u →
      u.toJson.fits nestingLimit = true ∧ parse? u.toText = some u) ∧
    (∀ (reason : String → String) (text : String) (u : CompilationUnit),
      load reason text = .ok u → load reason u.toText = .ok u) ∧
    (∀ u : CompilationUnit, u.toJson.fits nestingLimit = true →
      parse? u.toText = some u ∧ ∀ reason, load reason u.toText = u.validate) := by
  refine ⟨?_, ?_, ?_⟩
  · intro text u hparse
    have hfits := fits_of_parse? hparse
    exact ⟨hfits, parse?_toText hfits⟩
  · intro reason text u hload
    obtain ⟨hparse, hvalid⟩ := load_eq_ok_iff.1 hload
    exact load_eq_ok_iff.2 ⟨parse?_toText (fits_of_parse? hparse), hvalid⟩
  · intro u hfits
    exact ⟨parse?_toText hfits, load_toText hfits⟩

/-- A unit written by position, its one type by name with an unknown member and without the lists
that may be left out, is read back from its full text. -/
theorem text_round_trip_sparse :
    let text := Json.pretty (.array [.string "Main", .array [.object [
      ("span", .array [.natural 0, .natural 4]),
      ("shape", .array [.string "class"]),
      ("comment", .array [.array [.null]]),
      ("name", .string "Unit"),
      ("id", .natural 7)]]])
    let unit : CompilationUnit := {
      name := "Main"
      types := [{
        id := ⟨7⟩
        name := "Unit"
        annots := []
        shape := .plain
        supertypes := []
        methods := []
        span := { start := 0, stop := 4 } }]
      methods := [] }
    (∀ reason, load reason text = .ok unit) ∧ unit.toJson.fits nestingLimit = true ∧
      parse? unit.toText = some unit ∧ ∀ reason, load reason unit.toText = .ok unit := by
  intro text unit
  have hparse : parse? text = some unit := by
    rw [parse?, Json.parse?_pretty]
    · rfl
    · simp [Json.Writable, Json.AllWritable, Json.MembersWritable, Json.Numeral.maxSignificand]
  have hload : ∀ reason, load reason text = .ok unit := fun _ => load_eq_ok_iff.2 ⟨hparse, rfl⟩
  obtain ⟨hread, hloaded, -⟩ := text_round_trip
  obtain ⟨hfits, hback⟩ := hread text unit hparse
  exact ⟨hload, hfits, hback, fun reason => hloaded reason text unit (hload reason)⟩

end CompilationUnit

end Closedness
