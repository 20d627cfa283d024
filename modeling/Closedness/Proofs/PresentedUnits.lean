import Closedness.Proofs.PresentedBodies
import Closedness.Proofs.RoundTrip

/-!
# Presentations of a unit

Whatever presentation of a unit a text writes, it is read as that unit
(`CompilationUnit.presentation_ignored`). Statements and shapes are decoded as a whole, so a scalar
that is added inside one of them must be decodable: a number past every double is refused there
(`CompilationUnit.presentation_refused`), and skipped elsewhere.
-/

namespace Closedness

open Json (Presents Accepts DecodableInside Fields)

/-! ## Methods and types -/

section Declarations

/-- A value that carries its kind is decoded as a whole from any presentation of it. -/
theorem Json.accepts_whole {α : Type} {read : Nat → Json → Option α} {room : Nat} {a : α}
    {kind : String} {members : Fields} {whole : Bool}
    (hread : Accepts DecodableInside true (read room) a (.tagged kind members))
    (hkind : "kind" ∉ members.map Prod.fst) (hfits : (Json.tagged kind members).fits room = true) :
    Accepts DecodableInside whole (readWhole read room) a (.tagged kind members) := by
  intro shown hshown
  have hwhole := hshown.whole_of_tagged
  rw [readWhole, hwhole.fits hfits, hwhole.tagIsName hkind]
  exact hread shown hwhole

theorem Stmt.accepts_whole {s : Stmt} {room : Nat} {whole : Bool}
    (hfits : s.toJson.fits room = true) :
    Accepts DecodableInside whole (Json.readWhole Stmt.ofJson? room) s s.toJson := by
  have hread := (bodies_tolerant DecodableInside room).stmt s hfits
  cases s <;> exact Json.accepts_whole hread (by simp) hfits

/-- The statements of a block start two levels inside it. -/
theorem Block.accepts_whole {block : Block} {room : Nat} {whole : Bool}
    (hfits : block.toJson.fits (room + 2) = true) :
    Accepts DecodableInside whole (Block.ofJsonWith? (Json.readWhole Stmt.ofJson? room)) block
      block.toJson := by
  obtain ⟨stmts, span⟩ := block
  simp [toJson] at hfits
  exact Block.accepts (Json.accepts_list fun s hs =>
    Stmt.accepts_whole (Json.fits_ofList.1 hfits s hs)) span

/-- A method is taken in every presentation. -/
theorem Method.accepts {m : Method} {room : Nat} {whole : Bool}
    (hfits : m.toJson.fits (room + 3) = true) :
    Accepts DecodableInside whole (Method.ofJson? (room + 3)) m m.toJson := by
  simp only [toJson, Block.optionToJson_eq, Json.fits_object, List.forall_mem_cons] at hfits
  obtain ⟨-, -, -, -, -, -, hbodyFits, -⟩ := hfits
  intro shown hshown
  simp only [toJson, Block.optionToJson_eq] at hshown
  obtain ⟨fields, hrecord, hid, hname, hstatic, hannots, hreturn, hparams, hbody, hspan, -⟩ :=
    hshown.record (by simp)
  have hparams := hparams.list (Json.accepts_list fun p _ => p.accepts)
  have hblock : ∀ block, m.body = some block → Accepts DecodableInside whole
      (Block.ofJsonWith? (Json.readWhole Stmt.ofJson? room)) block block.toJson := by
    intro block hsome
    rw [hsome] at hbodyFits
    exact Block.accepts_whole hbodyFits
  have hbody := hbody.optional (Json.accepts_option hblock Block.toJson_ne_null)
    (Block.defaultOf?_ne_toJson _)
  simp [ofJson?, hrecord, hid.id rfl, hname.string, hstatic.flag, hannots.annots,
    hreturn.optionalString, hparams, hbody, hspan.span]

theorem TypeShape.accepts (shape : TypeShape) {addable : Bool → Json → Prop} {whole : Bool} :
    Accepts addable whole TypeShape.ofJson? shape shape.toJson := by
  intro shown hshown
  cases shape with
  | plain =>
    obtain ⟨body, fields, hkind, hrecord, -⟩ := hshown.tagged (by simp)
    simp [ofJson?, kinds, hkind, hrecord]
  | interface =>
    obtain ⟨body, fields, hkind, hrecord, -⟩ := hshown.tagged (by simp)
    simp [ofJson?, kinds, hkind, hrecord]
  | singleton =>
    obtain ⟨body, fields, hkind, hrecord, -⟩ := hshown.tagged (by simp)
    simp [ofJson?, kinds, hkind, hrecord]
  | record components =>
    obtain ⟨body, fields, hkind, hrecord, hcomponents, -⟩ := hshown.tagged (by simp)
    have hcomponents := hcomponents.mandatory (Json.accepts_list fun c _ => c.accepts) rfl
    simp [ofJson?, kinds, hkind, hrecord, hcomponents]

/-- The shape of a type is taken in every presentation. -/
theorem TypeShape.accepts_whole (shape : TypeShape) (room : Nat) {whole : Bool} :
    Accepts DecodableInside whole (Json.readWhole (fun _ => TypeShape.ofJson?) (room + 6)) shape
      shape.toJson := by
  have hread : Accepts DecodableInside true TypeShape.ofJson? shape shape.toJson := shape.accepts
  have hfits := shape.fits_toJson room
  cases shape <;> exact Json.accepts_whole hread (by simp) hfits

theorem TypeShape.defaultOf?_ne_toJson (name : String) (shape : TypeShape) :
    Json.defaultOf? name ≠ some shape.toJson := by
  cases shape <;> exact Json.defaultOf?_ne_object name _

/-- A type is taken in every presentation. -/
theorem TypeDecl.accepts {t : TypeDecl} {room : Nat} {whole : Bool}
    (hfits : t.toJson.fits (room + 7) = true) :
    Accepts DecodableInside whole (TypeDecl.ofJson? (room + 7)) t t.toJson := by
  simp only [toJson, Json.fits_object, List.forall_mem_cons] at hfits
  obtain ⟨-, -, -, -, -, hmethodsFit, -⟩ := hfits
  intro shown hshown
  obtain ⟨fields, hrecord, hid, hname, hannots, hshape, hsupertypes, hmethods, hspan, -⟩ :=
    hshown.record (by simp)
  have hshape := hshape.required (t.shape.accepts_whole room) (t.shape.defaultOf?_ne_toJson _)
  have hsupertypes := hsupertypes.list (Json.accepts_list fun s _ => Json.accepts_string s)
  have hmethods := hmethods.list (Json.accepts_list fun m hm =>
    Method.accepts (Json.fits_ofList.1 hmethodsFit m hm))
  simp [ofJson?, hrecord, hid.id rfl, hname.string, hannots.annots, hshape, hsupertypes, hmethods,
    hspan.span]

end Declarations

/-! ## Units -/

namespace CompilationUnit

/-- A unit is taken in every presentation. -/
theorem accepts {u : CompilationUnit} (hfits : u.toJson.fits nestingLimit = true) {whole : Bool} :
    Accepts DecodableInside whole ofJson? u u.toJson := by
  simp only [toJson, nestingLimit, Json.fits_object, List.forall_mem_cons] at hfits
  obtain ⟨-, htypesFit, hmethodsFit, -⟩ := hfits
  intro shown hshown
  obtain ⟨fields, hrecord, hname, htypes, hmethods, -⟩ := hshown.record (by simp)
  have htypes := htypes.list (Json.accepts_list fun t ht =>
    TypeDecl.accepts (Json.fits_ofList.1 htypesFit t ht))
  have hmethods := hmethods.list (Json.accepts_list fun m hm =>
    Method.accepts (Json.fits_ofList.1 hmethodsFit m hm))
  simp [ofJson?, nestingLimit, hrecord, hname.string, htypes, hmethods]

/-- The text writes a presentation of the unit. -/
def PresentedBy (addable : Bool → Json → Prop) (u : CompilationUnit) (text : String) : Prop :=
  ∃ value, Json.Presents addable false u.toJson value ∧ Json.Padded value text.toList

/-- **A unit is read from any presentation of it.** If the text of a unit does not nest too deep, it
is a presentation of the unit, and so is every text that has the members of objects in another
order, leaves out members that have their default, adds scalars under other names (inside statements
and shapes only decodable ones) and uses other blanks. All of these are read as the unit. -/
theorem presentation_ignored {u : CompilationUnit} (h : u.toJson.fits nestingLimit = true) :
    u.PresentedBy DecodableInside u.toText ∧
      ∀ text, u.PresentedBy DecodableInside text →
        parse? text = some u ∧ ∀ reason, load reason text = u.validate := by
  constructor
  · exact ⟨u.toJson, Json.presents_self u.toJson false, Json.padded_pretty u.writable_toJson⟩
  · rintro text ⟨value, hpresents, hpadded⟩
    have hparse : parse? text = some u := by
      rw [parse?, Json.parse?_of_padded hpadded, Option.bind_some]
      exact accepts h value hpresents
    refine ⟨hparse, fun reason => ?_⟩
    rw [load, read, hparse]
    rfl

/-! ### A class in other words -/

namespace Reworded

/-- `class T` -/
def decl : TypeDecl where
  id := ⟨7⟩
  name := "T"
  annots := []
  shape := .plain
  supertypes := []
  methods := []
  span := { start := 0, stop := 4 }

def unit : CompilationUnit :=
  { name := "n", types := [decl], methods := [] }

theorem unit_fits : unit.toJson.fits nestingLimit = true := rfl

def span : Json :=
  .object [("end", .natural 4), ("start", .natural 0)]

/-- The shape of the class, after a member that it does not have. -/
def shape (note : Json) : Json :=
  .object [("note", note), ("kind", .string "class")]

/-- The class, without the members that have their default but with one that it does not have. -/
def type (note : Json) : Json :=
  .object [("size", .undecodable), ("span", span), ("shape", shape note), ("name", .string "T"),
    ("id", .natural 7)]

/-- The unit. Here and inside it, members stand in reverse. -/
def value (note : Json) : Json :=
  .object [("types", .array [type note]), ("name", .string "n")]

def opening : String :=
  "\x7b\"types\":[\x7b\"size\":1e999,\"span\":\x7b\"end\":4,\"start\":0\x7d,\"shape\":\x7b\"note\":"

def closing : String :=
  ",\"kind\":\"class\"\x7d,\"name\":\"T\",\n\"id\":7\x7d],\n\"name\":\"n\"\x7d"

/-- The text of the unit, around the text of the note. -/
def text (note : String) : String :=
  opening ++ note ++ closing

section

open Json

variable {addable : Bool → Json → Prop} {note : Json}

theorem presents_span : Presents addable false decl.span.toJson span :=
  .object (.keep (.scalar rfl) (.keep (.scalar rfl) (.drop rfl (.drop rfl (.drop rfl (.drop rfl
    .nil)))))) (additions_nil _ _) (.swap ..)

theorem presents_shape (hscalar : note.isScalar = true) (hnote : addable true note) :
    Presents addable false decl.shape.toJson (shape note) :=
  .object (.keep (.scalar rfl) .nil) (additions_singleton "note" (by simp) hscalar hnote) (.swap ..)

theorem presents_type (hshape : Presents addable false decl.shape.toJson (shape note))
    (hsize : addable false .undecodable) : Presents addable false decl.toJson (type note) :=
  .object (.keep (.scalar rfl) (.keep (.scalar rfl) (.drop rfl (.keep hshape (.drop rfl (.drop rfl
    (.keep presents_span .nil))))))) (additions_singleton "size" (by simp) rfl hsize)
    (List.reverse_perm [("id", Json.natural 7), ("name", Json.string "T"), ("shape", shape note),
      ("span", span), ("size", Json.undecodable)])

theorem presents_unit (htype : Presents addable false decl.toJson (type note)) :
    Presents addable false unit.toJson (value note) :=
  .object (.keep (.scalar rfl) (.keep (.array (.cons htype .nil)) (.drop rfl .nil)))
    (additions_nil _ _) (.swap ..)

/-- A number past every double is written, but denotes nothing. -/
theorem writes_huge : Writes .undecodable "1e999".toList := by
  have hlexeme : Numeral.Lexeme
      { negative := false, whole := ['1'], fraction := []
        exponent := some (false, ['9', '9', '9']) } "1e999".toList :=
    .mk (.digits rfl (by decide) (by simp)) .absent
      (.present (.inl rfl) .absent ⟨by simp, by simp⟩)
  exact .number hlexeme

theorem padded_text {shown : String} (hnote : Writes note shown.toList) :
    Padded (value note) (text shown).toList := by
  rw [text, String.toList_append, String.toList_append, List.append_assoc]
  generalize shown.toList = chars at hnote ⊢
  have hkey : ∀ name, Key name (quote name) := key_quote (List.forall_mem_nil _ : Blanks [])
  have hline : ∀ name, Key name (newline 0 ++ quote name) := key_quote (blanks_newline 0)
  have hstring : ∀ s, Padded (.string s) (quote s) := fun s =>
    (Writes.string (quoted_quote s)).padded
  have hspan : Writes span "\x7b\"end\":4,\"start\":0\x7d".toList :=
    .object (.cons (hkey "end") (writes_natural (by decide)).padded
      (.last (hkey "start") (writes_natural (by decide)).padded))
  have hshape := Writes.object (.cons (hkey "note") hnote.padded
    (.last (hkey "kind") (hstring "class")))
  have htype := Writes.object (.cons (hkey "size") writes_huge.padded
    (.cons (hkey "span") hspan.padded (.cons (hkey "shape") hshape.padded
      (.cons (hkey "name") (hstring "T")
        (.last (hline "id") (writes_natural (by decide : 7 ≤ _)).padded)))))
  have hunit := Writes.object (.cons (hkey "types") (Writes.array (.last htype.padded)).padded
    (.last (hline "name") (hstring "n")))
  have hpadded := hunit.padded
  simp only [List.append_assoc, List.cons_append] at hpadded
  exact hpadded

end

end Reworded

/-- A number past every double beside the shape and another number inside it change nothing. -/
theorem presentation_ignored_reworded :
    let text := Reworded.text "-0.5"
    Reworded.unit.toJson.fits nestingLimit = true ∧
      Reworded.unit.PresentedBy DecodableInside text ∧
      parse? text = some Reworded.unit ∧ ∀ reason, load reason text = .ok Reworded.unit := by
  intro text
  have hlexeme : Json.Numeral.Lexeme
      { negative := true, whole := ['0'], fraction := ['5'], exponent := none } "-0.5".toList :=
    .mk .zero (.present ⟨by simp, by simp⟩) .absent
  have hnote : Json.Writes (.decimal "-0.5") "-0.5".toList := .number hlexeme
  have hshape : Json.Presents DecodableInside false _ (Reworded.shape (.decimal "-0.5")) :=
    Reworded.presents_shape rfl fun _ h => Json.noConfusion h
  have hpresented : Reworded.unit.PresentedBy DecodableInside text :=
    ⟨_, Reworded.presents_unit (Reworded.presents_type hshape nofun), Reworded.padded_text hnote⟩
  obtain ⟨hparse, hload⟩ := (presentation_ignored Reworded.unit_fits).2 text hpresented
  exact ⟨Reworded.unit_fits, hpresented, hparse, hload⟩

/-- Inside the shape, a number past every double is refused. -/
theorem presentation_refused :
    let text := Reworded.text "1e999"
    Reworded.unit.toJson.fits nestingLimit = true ∧
      Reworded.unit.PresentedBy Json.Anything text ∧ parse? text = none := by
  intro text
  have hpadded := Reworded.padded_text Reworded.writes_huge
  have hshape : Json.Presents Json.Anything false _ (Reworded.shape .undecodable) :=
    Reworded.presents_shape rfl trivial
  have htype := Reworded.presents_type hshape trivial
  refine ⟨Reworded.unit_fits, ⟨_, Reworded.presents_unit htype, hpadded⟩, ?_⟩
  rw [parse?, Json.parse?_of_padded hpadded]
  rfl

end CompilationUnit

end Closedness
