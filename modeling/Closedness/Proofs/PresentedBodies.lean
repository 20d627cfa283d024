import Closedness.Proofs.BodyCodecs
import Closedness.Proofs.Presentation

/-!
# Presentations of headers and bodies

The readers of declarations in headers take every presentation of what is written for them
(`Param.accepts` and its like). Those of patterns, expressions and statements do so within their
room (`Json.Tolerant`). What a node holds is read with one level less, so the induction is on the
room, as it is for what is written (`bodies_tolerant`).
-/

namespace Closedness

open Json (Presents Accepts Shown Fields)

section Headers

variable {addable : Bool → Json → Prop} {whole : Bool}

/-! ## Spans, ids and annotations -/

theorem DeclId.accepts (id : DeclId) : Accepts addable whole DeclId.ofJson? id id.toJson :=
  Json.accepts_scalar rfl id.ofJson?_toJson

theorem Json.Shown.id {fields : Fields} {name : String} {id : DeclId}
    (h : Shown addable whole fields name id.toJson) (hname : defaultOf? name = none) :
    fields.required name DeclId.ofJson? = some id :=
  h.required id.accepts (by simp [hname])

theorem Span.accepts (s : Span) : Accepts addable whole Span.ofJson? s s.toJson := by
  have hread : ∀ n : UInt64,
      Accepts addable whole Json.readUInt64 n (.natural n.toNat) := fun n =>
    Json.accepts_scalar rfl (Json.readUInt64_toNat n)
  have hzero : ∀ {name : String} {n : UInt64},
      Json.defaultOf? name = some (.natural n.toNat) → 0 = n := by
    intro name n hdefault
    have htoNat : n.toNat = 0 := by simpa using Json.defaultOf?_cases hdefault
    exact (UInt64.toNat_inj.1 htoNat).symm
  intro shown hshown
  obtain ⟨fields, hrecord, hstart, hstop, hstartLine, hstopLine, hstartColumn, hstopColumn, -⟩ :=
    hshown.record (by simp)
  simp [ofJson?, fieldNames, hrecord, hstart.mandatory (hread _) rfl,
    hstop.mandatory (hread _) rfl, hstartLine.withDefault (hread _) hzero,
    hstopLine.withDefault (hread _) hzero, hstartColumn.withDefault (hread _) hzero,
    hstopColumn.withDefault (hread _) hzero]

theorem Json.Shown.span {fields : Fields} {s : Span}
    (h : Shown addable whole fields "span" s.toJson) :
    fields.required "span" Span.ofJson? = some s :=
  h.mandatory s.accepts rfl

theorem Annot.accepts (a : Annot) : Accepts addable whole Annot.ofJson? a a.toJson := by
  intro shown hshown
  obtain ⟨fields, hrecord, hname, hspan, -⟩ := hshown.record (by simp)
  simp [ofJson?, hrecord, hname.string, hspan.span]

theorem Json.Shown.annots {fields : Fields} {annots : List Annot}
    (h : Shown addable whole fields "annotations" (.ofList Annot.toJson annots)) :
    fields.list "annotations" Annot.ofJson? = some annots :=
  h.list (accepts_list fun a _ => a.accepts)

theorem Json.Shown.optionalString {fields : Fields} {name : String} {s : Option String}
    (h : Shown addable whole fields name (.ofOption .string s)) :
    fields.optional name Json.readString = some s :=
  h.optional (accepts_option (fun _ _ => accepts_string _) nofun) (defaultOf?_ne_string name)

/-! ## Declarations in headers -/

theorem Component.accepts (c : Component) :
    Accepts addable whole Component.ofJson? c c.toJson := by
  intro shown hshown
  obtain ⟨fields, hrecord, hid, hname, htype, hannots, hspan, -⟩ := hshown.record (by simp)
  simp [ofJson?, hrecord, hid.id rfl, hname.string, htype.string, hannots.annots, hspan.span]

theorem Param.accepts (p : Param) : Accepts addable whole Param.ofJson? p p.toJson := by
  intro shown hshown
  obtain ⟨fields, hrecord, hid, hname, htype, hannots, hvarargs, hspan, -⟩ :=
    hshown.record (by simp)
  simp [ofJson?, hrecord, hid.id rfl, hname.string, htype.string, hannots.annots, hvarargs.flag,
    hspan.span]

theorem LocalDecl.accepts (d : LocalDecl) :
    Accepts addable whole LocalDecl.ofJson? d d.toJson := by
  intro shown hshown
  obtain ⟨fields, hrecord, hid, hname, htype, hannots, hspan, -⟩ := hshown.record (by simp)
  simp [ofJson?, hrecord, hid.id rfl, hname.string, htype.optionalString, hannots.annots,
    hspan.span]

theorem PatternVar.accepts (v : PatternVar) :
    Accepts addable whole PatternVar.ofJson? v v.toJson := by
  intro shown hshown
  obtain ⟨fields, hrecord, hid, hname, hannots, hspan, -⟩ := hshown.record (by simp)
  simp [ofJson?, hrecord, hid.id rfl, hname.string, hannots.annots, hspan.span]

end Headers

/-! ## Bodies -/

namespace Json

/-- Within `room`, the reader takes the presentations of what is written for it. -/
def Tolerant {α : Type} (addable : Bool → Json → Prop) (room : Nat) (read : Json → Option α)
    (write : α → Json) : Prop :=
  ∀ a, (write a).fits room = true → Accepts addable true read a (write a)

namespace Tolerant

variable {α : Type} {addable : Bool → Json → Prop} {room : Nat} {read : Json → Option α}
  {write : α → Json}

theorem list (h : Tolerant addable room read write) :
    Tolerant addable room (readList read) (ofList write) := by
  intro values hfits
  refine accepts_list fun a ha => h a ?_
  have hwider : (ofList write values).fits (room + 1) = true := fits_of_le (Nat.le_succ room) hfits
  exact fits_ofList.1 hwider a ha

theorem option (h : Tolerant addable room read write) (hnull : ∀ a, write a ≠ .null) :
    Tolerant addable room (readOption read) (ofOption write) := by
  intro a hfits
  refine accepts_option (fun b hb => h b ?_) hnull
  rwa [hb] at hfits

end Tolerant

end Json

open Json (Tolerant)

theorem Expr.defaultOf?_ne_toJson (name : String) (e : Expr) :
    Json.defaultOf? name ≠ some e.toJson := by
  cases e <;> exact Json.defaultOf?_ne_object name _

theorem Block.defaultOf?_ne_toJson (name : String) (block : Block) :
    Json.defaultOf? name ≠ some block.toJson := by
  cases block
  exact Json.defaultOf?_ne_object name _

theorem ArmBody.defaultOf?_ne_toJson (name : String) (body : ArmBody) :
    Json.defaultOf? name ≠ some body.toJson := by
  cases body <;> exact Json.defaultOf?_ne_object name _

/-- A block is read from any presentation if its statements are. -/
theorem Block.accepts {addable : Bool → Json → Prop} {whole : Bool} {read : Json → Option Stmt}
    {stmts : List Stmt}
    (h : Accepts addable whole (Json.readList read) stmts (.ofList Stmt.toJson stmts))
    (span : Span) :
    Accepts addable whole (Block.ofJsonWith? read) (.mk stmts span)
      (Block.mk stmts span).toJson := by
  intro shown hshown
  simp only [toJson, Stmt.listToJson_eq] at hshown
  obtain ⟨fields, hrecord, hstmts, hspan, -⟩ := hshown.record (by simp)
  simp [ofJsonWith?, hrecord, hstmts.mandatory h rfl, hspan.span]

section Bodies

variable {addable : Bool → Json → Prop} {room : Nat}

/-- **Patterns are taken in every presentation**, as deep as they are within room. -/
theorem Pattern.tolerant (room : Nat) :
    Tolerant addable room (Pattern.ofJson? room) Pattern.toJson := by
  induction room with
  | zero =>
    intro p hfits
    cases p <;> cases hfits
  | succ room ih =>
    intro p hfits shown hshown
    cases p with
    | typeTest variant var span =>
      obtain ⟨body, fields, hkind, hrecord, hvariant, hvar, hspan, -⟩ := hshown.tagged (by simp)
      have hvar : fields.optional "binding" PatternVar.ofJson? = some var :=
        hvar.optional (Json.accepts_option (fun v _ => v.accepts) PatternVar.toJson_ne_null)
          fun v => Json.defaultOf?_ne_object _ _
      simp [ofJson?, kinds, hkind, hrecord, hvariant.id rfl, hvar,
        hspan.span]
    | «variable» var span =>
      obtain ⟨body, fields, hkind, hrecord, hvar, hspan, -⟩ := hshown.tagged (by simp)
      have hvar : fields.required "binding" PatternVar.ofJson? = some var :=
        hvar.required var.accepts (Json.defaultOf?_ne_object _ _)
      simp [ofJson?, kinds, hkind, hrecord, hvar, hspan.span]
    | record variant components span =>
      simp [toJson] at hfits
      simp only [toJson, listToJson_eq] at hshown
      obtain ⟨body, fields, hkind, hrecord, hvariant, hcomponents, hspan, -⟩ :=
        hshown.tagged (by simp)
      simp [ofJson?, kinds, hkind, hrecord, hvariant.id rfl,
        hcomponents.mandatory (ih.list _ hfits.1) rfl, hspan.span]
    | wildcard span =>
      obtain ⟨body, fields, hkind, hrecord, hspan, -⟩ := hshown.tagged (by simp)
      simp [ofJson?, kinds, hkind, hrecord, hspan.span]

/-- The readers of all that bodies are made of take presentations for what they present. -/
structure BodiesTolerant (addable : Bool → Json → Prop) (room : Nat) : Prop where
  expr : Tolerant addable room (Expr.ofJson? room) Expr.toJson
  stmt : Tolerant addable room (Stmt.ofJson? room) Stmt.toJson
  block : Tolerant addable room (Block.ofJson? room) Block.toJson
  arm : Tolerant addable room (Arm.ofJson? room) Arm.toJson
  label : Tolerant addable room (Label.ofJson? room) Label.toJson
  armBody : Tolerant addable room (ArmBody.ofJson? room) ArmBody.toJson

theorem Json.Shown.pattern {fields : Fields} {p : Pattern} (hfits : p.toJson.fits room = true)
    (h : Shown addable true fields "pattern" p.toJson) :
    fields.required "pattern" (Pattern.ofJson? room) = some p :=
  h.mandatory (Pattern.tolerant room p hfits) rfl

theorem Json.Shown.localDecl {fields : Fields} {d : LocalDecl}
    (h : Shown addable true fields "decl" d.toJson) :
    fields.required "decl" LocalDecl.ofJson? = some d :=
  h.mandatory d.accepts rfl

namespace BodiesTolerant

section Parts

variable (h : BodiesTolerant addable room) {fields : Fields} {name : String}
include h

theorem expr_required {e : Expr} (hfits : e.toJson.fits room = true)
    (hshown : Shown addable true fields name e.toJson) :
    fields.required name (Expr.ofJson? room) = some e :=
  hshown.required (h.expr e hfits) (Expr.defaultOf?_ne_toJson name e)

theorem expr_optional {e : Option Expr} (hfits : (Json.ofOption Expr.toJson e).fits room = true)
    (hshown : Shown addable true fields name (.ofOption Expr.toJson e)) :
    fields.optional name (Expr.ofJson? room) = some e :=
  hshown.optional (h.expr.option Expr.toJson_ne_null e hfits) (Expr.defaultOf?_ne_toJson name)

theorem expr_list {es : List Expr} (hfits : (Json.ofList Expr.toJson es).fits room = true)
    (hshown : Shown addable true fields name (.ofList Expr.toJson es)) :
    fields.list name (Expr.ofJson? room) = some es :=
  hshown.list (h.expr.list es hfits)

theorem block_required {block : Block} (hfits : block.toJson.fits room = true)
    (hshown : Shown addable true fields name block.toJson) :
    fields.required name (Block.ofJson? room) = some block :=
  hshown.required (h.block block hfits) (Block.defaultOf?_ne_toJson name block)

theorem block_optional {block : Option Block}
    (hfits : (Json.ofOption Block.toJson block).fits room = true)
    (hshown : Shown addable true fields name (.ofOption Block.toJson block)) :
    fields.optional name (Block.ofJson? room) = some block :=
  hshown.optional (h.block.option Block.toJson_ne_null block hfits)
    (Block.defaultOf?_ne_toJson name)

theorem arms_required {arms : List Arm} (hfits : (Json.ofList Arm.toJson arms).fits room = true)
    (hshown : Shown addable true fields "arms" (.ofList Arm.toJson arms)) :
    fields.required "arms" (Json.readList (Arm.ofJson? room)) = some arms :=
  hshown.mandatory (h.arm.list arms hfits) rfl

end Parts

/-- Expressions are taken one level deeper, in every presentation. -/
theorem expr_succ (h : BodiesTolerant addable room) :
    Tolerant addable (room + 1) (Expr.ofJson? (room + 1)) Expr.toJson := by
  intro e hfits shown hshown
  cases e with
  | null span =>
    simp only [Expr.toJson] at hshown
    obtain ⟨body, fields, hkind, hrecord, hspan, -⟩ := hshown.tagged (by simp)
    simp [Expr.ofJson?, Expr.kinds, hkind, hrecord, hspan.span]
  | literal type span =>
    simp only [Expr.toJson] at hshown
    obtain ⟨body, fields, hkind, hrecord, htype, hspan, -⟩ := hshown.tagged (by simp)
    simp [Expr.ofJson?, Expr.kinds, hkind, hrecord, htype.string, hspan.span]
  | var decl span =>
    simp only [Expr.toJson] at hshown
    obtain ⟨body, fields, hkind, hrecord, hdecl, hspan, -⟩ := hshown.tagged (by simp)
    simp [Expr.ofJson?, Expr.kinds, hkind, hrecord, hdecl.id rfl, hspan.span]
  | self span =>
    simp only [Expr.toJson] at hshown
    obtain ⟨body, fields, hkind, hrecord, hspan, -⟩ := hshown.tagged (by simp)
    simp [Expr.ofJson?, Expr.kinds, hkind, hrecord, hspan.span]
  | field receiver component span =>
    simp [Expr.toJson] at hfits
    simp only [Expr.toJson, Expr.optionToJson_eq] at hshown
    obtain ⟨body, fields, hkind, hrecord, hreceiver, hcomponent, hspan, -⟩ :=
      hshown.tagged (by simp)
    simp [Expr.ofJson?, Expr.kinds, hkind, hrecord, h.expr_optional hfits.1 hreceiver,
      hcomponent.id rfl, hspan.span]
  | call receiver method args span =>
    simp [Expr.toJson] at hfits
    simp only [Expr.toJson, Expr.optionToJson_eq, Expr.listToJson_eq] at hshown
    obtain ⟨body, fields, hkind, hrecord, hreceiver, hmethod, hargs, hspan, -⟩ :=
      hshown.tagged (by simp)
    simp [Expr.ofJson?, Expr.kinds, hkind, hrecord, h.expr_optional hfits.1 hreceiver,
      hmethod.id rfl, h.expr_list hfits.2.1 hargs, hspan.span]
  | construct variant args span =>
    simp [Expr.toJson] at hfits
    simp only [Expr.toJson, Expr.listToJson_eq] at hshown
    obtain ⟨body, fields, hkind, hrecord, hvariant, hargs, hspan, -⟩ := hshown.tagged (by simp)
    simp [Expr.ofJson?, Expr.kinds, hkind, hrecord, hvariant.id rfl, h.expr_list hfits.1 hargs,
      hspan.span]
  | singleton variant span =>
    simp only [Expr.toJson] at hshown
    obtain ⟨body, fields, hkind, hrecord, hvariant, hspan, -⟩ := hshown.tagged (by simp)
    simp [Expr.ofJson?, Expr.kinds, hkind, hrecord, hvariant.id rfl, hspan.span]
  | paren inner span =>
    simp [Expr.toJson] at hfits
    simp only [Expr.toJson] at hshown
    obtain ⟨body, fields, hkind, hrecord, hinner, hspan, -⟩ := hshown.tagged (by simp)
    simp [Expr.ofJson?, Expr.kinds, hkind, hrecord, h.expr_required hfits.1 hinner, hspan.span]
  | instanceOf operand pattern span =>
    simp [Expr.toJson] at hfits
    simp only [Expr.toJson] at hshown
    obtain ⟨body, fields, hkind, hrecord, hoperand, hpattern, hspan, -⟩ := hshown.tagged (by simp)
    simp [Expr.ofJson?, Expr.kinds, hkind, hrecord, h.expr_required hfits.1 hoperand,
      hpattern.pattern hfits.2.1, hspan.span]
  | conditional condition thenExpr elseExpr span =>
    simp [Expr.toJson] at hfits
    simp only [Expr.toJson] at hshown
    obtain ⟨body, fields, hkind, hrecord, hcondition, hthen, helse, hspan, -⟩ :=
      hshown.tagged (by simp)
    simp [Expr.ofJson?, Expr.kinds, hkind, hrecord, h.expr_required hfits.1 hcondition,
      h.expr_required hfits.2.1 hthen, h.expr_required hfits.2.2.1 helse, hspan.span]
  | switch scrutinee arms span =>
    simp [Expr.toJson] at hfits
    simp only [Expr.toJson, Arm.listToJson_eq] at hshown
    obtain ⟨body, fields, hkind, hrecord, hscrutinee, harms, hspan, -⟩ := hshown.tagged (by simp)
    simp [Expr.ofJson?, Expr.kinds, hkind, hrecord, h.expr_required hfits.1 hscrutinee,
      h.arms_required hfits.2.1 harms, hspan.span]
  | assign target value span =>
    simp [Expr.toJson] at hfits
    simp only [Expr.toJson] at hshown
    obtain ⟨body, fields, hkind, hrecord, htarget, hvalue, hspan, -⟩ := hshown.tagged (by simp)
    simp [Expr.ofJson?, Expr.kinds, hkind, hrecord, htarget.id rfl, h.expr_required hfits.1 hvalue,
      hspan.span]
  | other type children span =>
    simp [Expr.toJson] at hfits
    simp only [Expr.toJson, Expr.listToJson_eq] at hshown
    obtain ⟨body, fields, hkind, hrecord, htype, hchildren, hspan, -⟩ := hshown.tagged (by simp)
    simp [Expr.ofJson?, Expr.kinds, hkind, hrecord, htype.optionalString,
      h.expr_list hfits.1 hchildren, hspan.span]

theorem stmt_succ (h : BodiesTolerant addable room) :
    Tolerant addable (room + 1) (Stmt.ofJson? (room + 1)) Stmt.toJson := by
  intro s hfits shown hshown
  cases s with
  | declare decl init span =>
    simp [Stmt.toJson] at hfits
    simp only [Stmt.toJson, Expr.optionToJson_eq] at hshown
    obtain ⟨body, fields, hkind, hrecord, hdecl, hinit, hspan, -⟩ := hshown.tagged (by simp)
    simp [Stmt.ofJson?, Stmt.kinds, hkind, hrecord, hdecl.localDecl,
      h.expr_optional hfits.2.1 hinit, hspan.span]
  | expr expr span =>
    simp [Stmt.toJson] at hfits
    simp only [Stmt.toJson] at hshown
    obtain ⟨body, fields, hkind, hrecord, hexpr, hspan, -⟩ := hshown.tagged (by simp)
    simp [Stmt.ofJson?, Stmt.kinds, hkind, hrecord, h.expr_required hfits.1 hexpr, hspan.span]
  | ifElse condition thenBranch elseBranch span =>
    simp [Stmt.toJson] at hfits
    simp only [Stmt.toJson, Block.optionToJson_eq] at hshown
    obtain ⟨body, fields, hkind, hrecord, hcondition, hthen, helse, hspan, -⟩ :=
      hshown.tagged (by simp)
    simp [Stmt.ofJson?, Stmt.kinds, hkind, hrecord, h.expr_required hfits.1 hcondition,
      h.block_required hfits.2.1 hthen, h.block_optional hfits.2.2.1 helse, hspan.span]
  | loop condition body span =>
    simp [Stmt.toJson] at hfits
    simp only [Stmt.toJson] at hshown
    obtain ⟨body, fields, hkind, hrecord, hcondition, hloop, hspan, -⟩ := hshown.tagged (by simp)
    simp [Stmt.ofJson?, Stmt.kinds, hkind, hrecord, h.expr_required hfits.1 hcondition,
      h.block_required hfits.2.1 hloop, hspan.span]
  | switch scrutinee arms span =>
    simp [Stmt.toJson] at hfits
    simp only [Stmt.toJson, Arm.listToJson_eq] at hshown
    obtain ⟨body, fields, hkind, hrecord, hscrutinee, harms, hspan, -⟩ := hshown.tagged (by simp)
    simp [Stmt.ofJson?, Stmt.kinds, hkind, hrecord, h.expr_required hfits.1 hscrutinee,
      h.arms_required hfits.2.1 harms, hspan.span]
  | ret value span =>
    simp [Stmt.toJson] at hfits
    simp only [Stmt.toJson, Expr.optionToJson_eq] at hshown
    obtain ⟨body, fields, hkind, hrecord, hvalue, hspan, -⟩ := hshown.tagged (by simp)
    simp [Stmt.ofJson?, Stmt.kinds, hkind, hrecord, h.expr_optional hfits.1 hvalue, hspan.span]
  | block block span =>
    simp [Stmt.toJson] at hfits
    simp only [Stmt.toJson] at hshown
    obtain ⟨body, fields, hkind, hrecord, hblock, hspan, -⟩ := hshown.tagged (by simp)
    simp [Stmt.ofJson?, Stmt.kinds, hkind, hrecord, h.block_required hfits.1 hblock, hspan.span]

theorem label_succ (h : BodiesTolerant addable room) :
    Tolerant addable (room + 1) (Label.ofJson? (room + 1)) Label.toJson := by
  intro label hfits shown hshown
  cases label with
  | pattern pattern =>
    simp [Label.toJson] at hfits
    simp only [Label.toJson] at hshown
    obtain ⟨body, fields, hkind, hrecord, hpattern, -⟩ := hshown.tagged (by simp)
    simp [Label.ofJson?, Label.kinds, hkind, hrecord, hpattern.pattern hfits]
  | constant expr =>
    simp [Label.toJson] at hfits
    simp only [Label.toJson] at hshown
    obtain ⟨body, fields, hkind, hrecord, hexpr, -⟩ := hshown.tagged (by simp)
    simp [Label.ofJson?, Label.kinds, hkind, hrecord, h.expr_required hfits hexpr]
  | default =>
    simp only [Label.toJson] at hshown
    obtain ⟨body, fields, hkind, hrecord, -⟩ := hshown.tagged (by simp)
    simp [Label.ofJson?, Label.kinds, hkind, hrecord]

theorem armBody_succ (h : BodiesTolerant addable room) :
    Tolerant addable (room + 1) (ArmBody.ofJson? (room + 1)) ArmBody.toJson := by
  intro arm hfits shown hshown
  cases arm with
  | expr expr =>
    simp [ArmBody.toJson] at hfits
    simp only [ArmBody.toJson] at hshown
    obtain ⟨body, fields, hkind, hrecord, hexpr, -⟩ := hshown.tagged (by simp)
    simp [ArmBody.ofJson?, ArmBody.kinds, hkind, hrecord, h.expr_required hfits hexpr]
  | block block =>
    simp [ArmBody.toJson] at hfits
    simp only [ArmBody.toJson] at hshown
    obtain ⟨body, fields, hkind, hrecord, hblock, -⟩ := hshown.tagged (by simp)
    simp [ArmBody.ofJson?, ArmBody.kinds, hkind, hrecord, h.block_required hfits hblock]

theorem arm_succ (h : BodiesTolerant addable room) :
    Tolerant addable (room + 1) (Arm.ofJson? (room + 1)) Arm.toJson := by
  intro arm hfits shown hshown
  obtain ⟨label, body, span⟩ := arm
  simp [Arm.toJson] at hfits
  simp only [Arm.toJson] at hshown
  obtain ⟨fields, hrecord, hlabel, hbody, hspan, -⟩ := hshown.record (by simp)
  have hlabel := hlabel.mandatory (h.label label hfits.1) rfl
  have hbody := hbody.required (h.armBody body hfits.2.1) (body.defaultOf?_ne_toJson _)
  simp [Arm.ofJson?, hrecord, hlabel, hbody, hspan.span]

theorem block_succ (h : BodiesTolerant addable room) :
    Tolerant addable (room + 1) (Block.ofJson? (room + 1)) Block.toJson := by
  intro block hfits shown hshown
  obtain ⟨stmts, span⟩ := block
  simp [Block.toJson] at hfits
  rw [Block.ofJson?]
  exact Block.accepts (h.stmt.list stmts hfits.1) span shown hshown

theorem zero : BodiesTolerant addable 0 := by
  constructor
  all_goals
    intro node hfits
    cases node <;>
      simp [Expr.toJson, Stmt.toJson, Block.toJson, Arm.toJson, Label.toJson, ArmBody.toJson,
        Json.tagged, Json.fits] at hfits

/-- Bodies are taken one level deeper, in every presentation. -/
theorem succ (h : BodiesTolerant addable room) : BodiesTolerant addable (room + 1) where
  expr := h.expr_succ
  stmt := h.stmt_succ
  block := h.block_succ
  arm := h.arm_succ
  label := h.label_succ
  armBody := h.armBody_succ

end BodiesTolerant

/-- Within any room, the readers of bodies take presentations for what they present. -/
theorem bodies_tolerant (addable : Bool → Json → Prop) (room : Nat) :
    BodiesTolerant addable room := by
  induction room with
  | zero => exact BodiesTolerant.zero
  | succ room ih => exact ih.succ

end Bodies

end Closedness
