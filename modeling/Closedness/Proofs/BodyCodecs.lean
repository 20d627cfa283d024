import Closedness.Proofs.Codecs

/-!
# Bodies that are written can be read

Readers of patterns, expressions and statements go with their writers (`Pattern.faithful`,
`bodies_faithful`). Each reader uses up one level of its room for the object it reads, so the
induction is on the room: what a node holds is read with one level less, and a list takes up a level
of its own.
-/

namespace Closedness

open Json (Faithful Fields)

/-! ## Bodies are written -/

mutual

@[simp] theorem Pattern.writable_toJson : ∀ p : Pattern, p.toJson.Writable
  | .typeTest _ none _ => by simp [Pattern.toJson, Json.ofOption]
  | .typeTest _ (some var) _ => by simp [Pattern.toJson, Json.ofOption]
  | .variable _ _ => by simp [Pattern.toJson]
  | .record _ components _ => by
    have hcomponents := Pattern.writable_listToJson components
    simp [Pattern.toJson, hcomponents]
  | .wildcard _ => by simp [Pattern.toJson]

theorem Pattern.writable_listToJson : ∀ ps : List Pattern,
    (Json.array (Pattern.listToJson ps)).Writable
  | [] => trivial
  | p :: rest => ⟨p.writable_toJson, Pattern.writable_listToJson rest⟩

end

mutual

/-- What is written for an expression can be printed and parsed. -/
@[simp] theorem Expr.writable_toJson : ∀ e : Expr, e.toJson.Writable
  | .null _ | .literal _ _ | .var _ _ | .self _ | .singleton _ _ => by simp [Expr.toJson]
  | .field receiver _ _ => by
    have hreceiver := Expr.writable_optionToJson receiver
    simp [Expr.toJson, hreceiver]
  | .call receiver _ args _ => by
    have hreceiver := Expr.writable_optionToJson receiver
    have hargs := Expr.writable_listToJson args
    simp [Expr.toJson, hreceiver, hargs]
  | .construct _ args _ => by
    have hargs := Expr.writable_listToJson args
    simp [Expr.toJson, hargs]
  | .paren inner _ => by
    have hinner := inner.writable_toJson
    simp [Expr.toJson, hinner]
  | .instanceOf operand _ _ => by
    have hoperand := operand.writable_toJson
    simp [Expr.toJson, hoperand]
  | .conditional condition thenExpr elseExpr _ => by
    have hcondition := condition.writable_toJson
    have hthen := thenExpr.writable_toJson
    have helse := elseExpr.writable_toJson
    simp [Expr.toJson, hcondition, hthen, helse]
  | .switch scrutinee arms _ => by
    have hscrutinee := scrutinee.writable_toJson
    have harms := Arm.writable_listToJson arms
    simp [Expr.toJson, hscrutinee, harms]
  | .assign _ value _ => by
    have hvalue := value.writable_toJson
    simp [Expr.toJson, hvalue]
  | .other _ children _ => by
    have hchildren := Expr.writable_listToJson children
    simp [Expr.toJson, hchildren]

theorem Expr.writable_listToJson : ∀ es : List Expr,
    (Json.array (Expr.listToJson es)).Writable
  | [] => trivial
  | e :: rest => ⟨e.writable_toJson, Expr.writable_listToJson rest⟩

theorem Expr.writable_optionToJson : ∀ e : Option Expr,
    (Expr.optionToJson e).Writable
  | none => trivial
  | some e => e.writable_toJson

@[simp] theorem Stmt.writable_toJson : ∀ s : Stmt, s.toJson.Writable
  | .declare _ init _ => by
    have hinit := Expr.writable_optionToJson init
    simp [Stmt.toJson, hinit]
  | .expr expr _ => by
    have hexpr := expr.writable_toJson
    simp [Stmt.toJson, hexpr]
  | .ifElse condition thenBranch elseBranch _ => by
    have hcondition := condition.writable_toJson
    have hthen := thenBranch.writable_toJson
    have helse := Block.writable_optionToJson elseBranch
    simp [Stmt.toJson, hcondition, hthen, helse]
  | .loop condition body _ => by
    have hcondition := condition.writable_toJson
    have hbody := body.writable_toJson
    simp [Stmt.toJson, hcondition, hbody]
  | .switch scrutinee arms _ => by
    have hscrutinee := scrutinee.writable_toJson
    have harms := Arm.writable_listToJson arms
    simp [Stmt.toJson, hscrutinee, harms]
  | .ret value _ => by
    have hvalue := Expr.writable_optionToJson value
    simp [Stmt.toJson, hvalue]
  | .block block _ => by
    have hblock := block.writable_toJson
    simp [Stmt.toJson, hblock]

theorem Stmt.writable_listToJson : ∀ stmts : List Stmt,
    (Json.array (Stmt.listToJson stmts)).Writable
  | [] => trivial
  | s :: rest => ⟨s.writable_toJson, Stmt.writable_listToJson rest⟩

@[simp] theorem Block.writable_toJson : ∀ block : Block, block.toJson.Writable
  | .mk stmts _ => by
    have hstmts := Stmt.writable_listToJson stmts
    simp [Block.toJson, hstmts]

@[simp] theorem Block.writable_optionToJson : ∀ block : Option Block,
    (Block.optionToJson block).Writable
  | none => trivial
  | some block => block.writable_toJson

@[simp] theorem Arm.writable_toJson : ∀ arm : Arm, arm.toJson.Writable
  | .mk label body _ => by
    have hlabel := label.writable_toJson
    have hbody := body.writable_toJson
    simp [Arm.toJson, hlabel, hbody]

theorem Arm.writable_listToJson : ∀ arms : List Arm,
    (Json.array (Arm.listToJson arms)).Writable
  | [] => trivial
  | arm :: rest => ⟨arm.writable_toJson, Arm.writable_listToJson rest⟩

@[simp] theorem Label.writable_toJson : ∀ label : Label, label.toJson.Writable
  | .pattern _ => by simp [Label.toJson]
  | .constant expr => by
    have hexpr := expr.writable_toJson
    simp [Label.toJson, hexpr]
  | .default => by simp [Label.toJson]

@[simp] theorem ArmBody.writable_toJson : ∀ body : ArmBody, body.toJson.Writable
  | .expr expr => by
    have hexpr := expr.writable_toJson
    simp [ArmBody.toJson, hexpr]
  | .block block => by
    have hblock := block.writable_toJson
    simp [ArmBody.toJson, hblock]

end

/-! ## Patterns -/

@[simp] theorem Pattern.listToJson_eq (ps : List Pattern) :
    .array (Pattern.listToJson ps) = Json.ofList Pattern.toJson ps := by
  have hmap : Pattern.listToJson ps = ps.map Pattern.toJson := by
    induction ps with
    | nil => rw [listToJson, List.map_nil]
    | cons p rest ih => rw [listToJson, List.map_cons, ih]
  rw [Json.ofList, hmap]

theorem PatternVar.toJson_ne_null (v : PatternVar) : v.toJson ≠ .null := nofun

/-- A pattern nests no deeper than what it is read from, if its components do not. -/
theorem Pattern.keepsFit {room : Nat} (ih : Faithful room (Pattern.ofJson? room) Pattern.toJson)
    {value : Json} {p : Pattern} {n : Nat} (hread : Pattern.ofJson? (room + 1) value = some p)
    (hfits : value.fits n = true) : p.toJson.fits n = true := by
  simp only [ofJson?, bind, Option.bind_eq_some_iff] at hread
  obtain ⟨⟨kind, body⟩, hvariant, hread⟩ := hread
  have hbody := Json.fits_of_variant? hvariant hfits
  simp only at hread
  split at hread
  case h_5 => cases hread
  all_goals
    simp only [Option.bind_eq_some_iff] at hread
    obtain ⟨fields, hfields, hread⟩ := hread
    obtain ⟨inner, rfl, hfit⟩ := Json.fit_of_record? hfields hbody
  · obtain ⟨variant, -, var, hvar, span, hspan, hnode⟩ := hread
    cases hnode
    have hspan := hfit.span hspan
    have hvar := (PatternVar.faithful room).optional PatternVar.toJson_ne_null hfit hvar
    simp [toJson, hspan, hvar]
  · obtain ⟨var, hvar, span, hspan, hnode⟩ := hread
    cases hnode
    have hspan := hfit.span hspan
    have hvar := (PatternVar.faithful room).required hfit hvar
    simp [toJson, hspan, hvar]
  · obtain ⟨variant, -, components, hcomponents, span, hspan, hnode⟩ := hread
    cases hnode
    have hspan := hfit.span hspan
    have hcomponents := ih.list.required hfit hcomponents
    simp [toJson, hspan, hcomponents]
  · obtain ⟨span, hspan, hnode⟩ := hread
    cases hnode
    have hspan := hfit.span hspan
    simp [toJson, hspan]

/-- A pattern is read back when those inside it are. -/
theorem Pattern.readsBack {room : Nat} (ih : Faithful room (Pattern.ofJson? room) Pattern.toJson)
    {p : Pattern} (hfits : p.toJson.fits (room + 1) = true) :
    Pattern.ofJson? (room + 1) p.toJson = some p := by
  have hvar := (PatternVar.faithful room).option PatternVar.toJson_ne_null
  have hcomponents := ih.list.mono (Nat.le_succ room)
  cases p with
  | _ =>
    simp [toJson] at hfits
    simp [toJson, ofJson?, kinds, hfits, hvar.readsBack, hcomponents.readsBack]

/-- **Patterns are read and written faithfully**, however deep they nest. -/
theorem Pattern.faithful (room : Nat) : Faithful room (Pattern.ofJson? room) Pattern.toJson := by
  induction room with
  | zero =>
    constructor
    · intro value p n hread _
      cases hread
    · intro p hfits
      cases p <;> cases hfits
  | succ room ih => exact ⟨Pattern.keepsFit ih, Pattern.readsBack ih⟩

/-! ## Lists and options of nodes -/

@[simp] theorem Expr.listToJson_eq (es : List Expr) :
    .array (Expr.listToJson es) = Json.ofList Expr.toJson es := by
  have hmap : Expr.listToJson es = es.map Expr.toJson := by
    induction es with
    | nil => rw [listToJson, List.map_nil]
    | cons e rest ih => rw [listToJson, List.map_cons, ih]
  rw [Json.ofList, hmap]

@[simp] theorem Stmt.listToJson_eq (stmts : List Stmt) :
    .array (Stmt.listToJson stmts) = Json.ofList Stmt.toJson stmts := by
  have hmap : Stmt.listToJson stmts = stmts.map Stmt.toJson := by
    induction stmts with
    | nil => rw [listToJson, List.map_nil]
    | cons s rest ih => rw [listToJson, List.map_cons, ih]
  rw [Json.ofList, hmap]

@[simp] theorem Arm.listToJson_eq (arms : List Arm) :
    .array (Arm.listToJson arms) = Json.ofList Arm.toJson arms := by
  have hmap : Arm.listToJson arms = arms.map Arm.toJson := by
    induction arms with
    | nil => rw [listToJson, List.map_nil]
    | cons arm rest ih => rw [listToJson, List.map_cons, ih]
  rw [Json.ofList, hmap]

@[simp] theorem Expr.optionToJson_eq (e : Option Expr) :
    Expr.optionToJson e = Json.ofOption Expr.toJson e := by
  cases e <;> rw [optionToJson, Json.ofOption]

@[simp] theorem Block.optionToJson_eq (block : Option Block) :
    Block.optionToJson block = Json.ofOption Block.toJson block := by
  cases block <;> rw [optionToJson, Json.ofOption]

theorem Expr.toJson_ne_null (e : Expr) : e.toJson ≠ .null := by
  cases e <;> simp [toJson, Json.tagged]

theorem Block.toJson_ne_null (block : Block) : block.toJson ≠ .null := by
  cases block
  simp [toJson]

/-- A block can be read if its statements can. -/
theorem Block.ofJsonWith?_toJson {read : Json → Option Stmt} {stmts : List Stmt}
    (h : Json.readList read (.ofList Stmt.toJson stmts) = some stmts) (span : Span) :
    Block.ofJsonWith? read (Block.mk stmts span).toJson = some (.mk stmts span) := by
  simp [ofJsonWith?, toJson, h]

/-! ## Expressions and statements -/

/-- The readers of all that bodies are made of go with their writers. -/
structure BodiesFaithful (room : Nat) : Prop where
  expr : Faithful room (Expr.ofJson? room) Expr.toJson
  stmt : Faithful room (Stmt.ofJson? room) Stmt.toJson
  block : Faithful room (Block.ofJson? room) Block.toJson
  arm : Faithful room (Arm.ofJson? room) Arm.toJson
  label : Faithful room (Label.ofJson? room) Label.toJson
  armBody : Faithful room (ArmBody.ofJson? room) ArmBody.toJson

namespace BodiesFaithful

variable {room : Nat}

/-- An expression that is read is written so that it nests no deeper. -/
theorem expr_keepsFit (h : BodiesFaithful room) {value : Json} {e : Expr} {n : Nat}
    (hread : Expr.ofJson? (room + 1) value = some e) (hfits : value.fits n = true) :
    e.toJson.fits n = true := by
  simp only [Expr.ofJson?, bind, Option.bind_eq_some_iff] at hread
  obtain ⟨⟨kind, body⟩, hvariant, hread⟩ := hread
  have hbody := Json.fits_of_variant? hvariant hfits
  simp only at hread
  -- one case for each of `Expr.kinds`, in their order, and one for any other name
  split at hread
  case h_15 => cases hread
  all_goals
    simp only [Option.bind_eq_some_iff] at hread
    obtain ⟨fields, hfields, hread⟩ := hread
    obtain ⟨inner, rfl, hfit⟩ := Json.fit_of_record? hfields hbody
  · obtain ⟨span, hspan, hnode⟩ := hread
    cases hnode
    have hspan := hfit.span hspan
    simp [Expr.toJson, hspan]
  · obtain ⟨type, -, span, hspan, hnode⟩ := hread
    cases hnode
    have hspan := hfit.span hspan
    simp [Expr.toJson, hspan]
  · obtain ⟨decl, -, span, hspan, hnode⟩ := hread
    cases hnode
    have hspan := hfit.span hspan
    simp [Expr.toJson, hspan]
  · obtain ⟨span, hspan, hnode⟩ := hread
    cases hnode
    have hspan := hfit.span hspan
    simp [Expr.toJson, hspan]
  · obtain ⟨receiver, hreceiver, component, -, span, hspan, hnode⟩ := hread
    cases hnode
    have hspan := hfit.span hspan
    have hreceiver := h.expr.optional Expr.toJson_ne_null hfit hreceiver
    simp [Expr.toJson, hspan, hreceiver]
  · obtain ⟨receiver, hreceiver, method, -, args, hargs, span, hspan, hnode⟩ := hread
    cases hnode
    have hspan := hfit.span hspan
    have hreceiver := h.expr.optional Expr.toJson_ne_null hfit hreceiver
    have hargs := h.expr.defaulted hfit (Span.room_of_fits hspan) hargs
    simp [Expr.toJson, hspan, hreceiver, hargs]
  · obtain ⟨variant, -, args, hargs, span, hspan, hnode⟩ := hread
    cases hnode
    have hspan := hfit.span hspan
    have hargs := h.expr.defaulted hfit (Span.room_of_fits hspan) hargs
    simp [Expr.toJson, hspan, hargs]
  · obtain ⟨variant, -, span, hspan, hnode⟩ := hread
    cases hnode
    have hspan := hfit.span hspan
    simp [Expr.toJson, hspan]
  · obtain ⟨inner, hinner, span, hspan, hnode⟩ := hread
    cases hnode
    have hspan := hfit.span hspan
    have hinner := h.expr.required hfit hinner
    simp [Expr.toJson, hspan, hinner]
  · obtain ⟨operand, hoperand, pattern, hpattern, span, hspan, hnode⟩ := hread
    cases hnode
    have hspan := hfit.span hspan
    have hoperand := h.expr.required hfit hoperand
    have hpattern := (Pattern.faithful room).required hfit hpattern
    simp [Expr.toJson, hspan, hoperand, hpattern]
  · obtain ⟨condition, hcondition, thenExpr, hthenExpr, elseExpr, helseExpr, span, hspan, hnode⟩ :=
      hread
    cases hnode
    have hspan := hfit.span hspan
    have hcondition := h.expr.required hfit hcondition
    have hthenExpr := h.expr.required hfit hthenExpr
    have helseExpr := h.expr.required hfit helseExpr
    simp [Expr.toJson, hspan, hcondition, hthenExpr, helseExpr]
  · obtain ⟨scrutinee, hscrutinee, arms, harms, span, hspan, hnode⟩ := hread
    cases hnode
    have hspan := hfit.span hspan
    have hscrutinee := h.expr.required hfit hscrutinee
    have harms := h.arm.list.required hfit harms
    simp [Expr.toJson, hspan, hscrutinee, harms]
  · obtain ⟨target, -, value, hvalue, span, hspan, hnode⟩ := hread
    cases hnode
    have hspan := hfit.span hspan
    have hvalue := h.expr.required hfit hvalue
    simp [Expr.toJson, hspan, hvalue]
  · obtain ⟨type, htype, children, hchildren, span, hspan, hnode⟩ := hread
    cases hnode
    have hspan := hfit.span hspan
    have htype := (Json.readString_faithful room).optional (fun _ => nofun) hfit htype
    have hchildren := h.expr.defaulted hfit (Span.room_of_fits hspan) hchildren
    simp [Expr.toJson, hspan, htype, hchildren]

/-- An expression is read back when what is inside it is. -/
theorem expr_readsBack (h : BodiesFaithful room) {e : Expr}
    (hfits : e.toJson.fits (room + 1) = true) : Expr.ofJson? (room + 1) e.toJson = some e := by
  have hoption := h.expr.option Expr.toJson_ne_null
  have hlist := h.expr.list.mono (Nat.le_succ room)
  have harms := h.arm.list.mono (Nat.le_succ room)
  have hpattern := Pattern.faithful room
  cases e with
  | _ =>
    simp [Expr.toJson] at hfits
    simp [Expr.toJson, Expr.ofJson?, Expr.kinds, hfits, h.expr.readsBack, hoption.readsBack,
      hlist.readsBack, harms.readsBack, hpattern.readsBack]

theorem stmt_keepsFit (h : BodiesFaithful room) {value : Json} {s : Stmt} {n : Nat}
    (hread : Stmt.ofJson? (room + 1) value = some s) (hfits : value.fits n = true) :
    s.toJson.fits n = true := by
  simp only [Stmt.ofJson?, bind, Option.bind_eq_some_iff] at hread
  obtain ⟨⟨kind, body⟩, hvariant, hread⟩ := hread
  have hbody := Json.fits_of_variant? hvariant hfits
  simp only at hread
  split at hread
  case h_8 => cases hread
  all_goals
    simp only [Option.bind_eq_some_iff] at hread
    obtain ⟨fields, hfields, hread⟩ := hread
    obtain ⟨inner, rfl, hfit⟩ := Json.fit_of_record? hfields hbody
  · obtain ⟨decl, hdecl, init, hinit, span, hspan, hnode⟩ := hread
    cases hnode
    have hspan := hfit.span hspan
    have hdecl := (LocalDecl.faithful room).required hfit hdecl
    have hinit := h.expr.optional Expr.toJson_ne_null hfit hinit
    simp [Stmt.toJson, hspan, hdecl, hinit]
  · obtain ⟨expr, hexpr, span, hspan, hnode⟩ := hread
    cases hnode
    have hspan := hfit.span hspan
    have hexpr := h.expr.required hfit hexpr
    simp [Stmt.toJson, hspan, hexpr]
  · obtain ⟨condition, hcondition, thenBranch, hthenBranch, elseBranch, helseBranch, span, hspan,
      hnode⟩ := hread
    cases hnode
    have hspan := hfit.span hspan
    have hcondition := h.expr.required hfit hcondition
    have hthenBranch := h.block.required hfit hthenBranch
    have helseBranch := h.block.optional Block.toJson_ne_null hfit helseBranch
    simp [Stmt.toJson, hspan, hcondition, hthenBranch, helseBranch]
  · obtain ⟨condition, hcondition, body, hbody, span, hspan, hnode⟩ := hread
    cases hnode
    have hspan := hfit.span hspan
    have hcondition := h.expr.required hfit hcondition
    have hbody := h.block.required hfit hbody
    simp [Stmt.toJson, hspan, hcondition, hbody]
  · obtain ⟨scrutinee, hscrutinee, arms, harms, span, hspan, hnode⟩ := hread
    cases hnode
    have hspan := hfit.span hspan
    have hscrutinee := h.expr.required hfit hscrutinee
    have harms := h.arm.list.required hfit harms
    simp [Stmt.toJson, hspan, hscrutinee, harms]
  · obtain ⟨value, hvalue, span, hspan, hnode⟩ := hread
    cases hnode
    have hspan := hfit.span hspan
    have hvalue := h.expr.optional Expr.toJson_ne_null hfit hvalue
    simp [Stmt.toJson, hspan, hvalue]
  · obtain ⟨block, hblock, span, hspan, hnode⟩ := hread
    cases hnode
    have hspan := hfit.span hspan
    have hblock := h.block.required hfit hblock
    simp [Stmt.toJson, hspan, hblock]

theorem stmt_readsBack (h : BodiesFaithful room) {s : Stmt}
    (hfits : s.toJson.fits (room + 1) = true) : Stmt.ofJson? (room + 1) s.toJson = some s := by
  have hoption := h.expr.option Expr.toJson_ne_null
  have hbranch := h.block.option Block.toJson_ne_null
  have harms := h.arm.list.mono (Nat.le_succ room)
  cases s with
  | _ =>
    simp [Stmt.toJson] at hfits
    simp [Stmt.toJson, Stmt.ofJson?, Stmt.kinds, hfits, h.expr.readsBack, hoption.readsBack,
      h.block.readsBack, hbranch.readsBack, harms.readsBack]

theorem label_keepsFit (h : BodiesFaithful room) {value : Json} {label : Label} {n : Nat}
    (hread : Label.ofJson? (room + 1) value = some label) (hfits : value.fits n = true) :
    label.toJson.fits n = true := by
  simp only [Label.ofJson?, bind, Option.bind_eq_some_iff] at hread
  obtain ⟨⟨kind, body⟩, hvariant, hread⟩ := hread
  have hbody := Json.fits_of_variant? hvariant hfits
  simp only at hread
  split at hread
  case h_4 => cases hread
  all_goals
    simp only [Option.bind_eq_some_iff] at hread
    obtain ⟨fields, hfields, hread⟩ := hread
    obtain ⟨inner, rfl, hfit⟩ := Json.fit_of_record? hfields hbody
  · obtain ⟨pattern, hpattern, hnode⟩ := hread
    cases hnode
    have hpattern := (Pattern.faithful room).required hfit hpattern
    simp [Label.toJson, hpattern]
  · obtain ⟨expr, hexpr, hnode⟩ := hread
    cases hnode
    have hexpr := h.expr.required hfit hexpr
    simp [Label.toJson, hexpr]
  · cases hread
    simp [Label.toJson]

theorem label_readsBack (h : BodiesFaithful room) {label : Label}
    (hfits : label.toJson.fits (room + 1) = true) :
    Label.ofJson? (room + 1) label.toJson = some label := by
  have hpattern := Pattern.faithful room
  cases label with
  | _ =>
    simp [Label.toJson] at hfits
    simp [Label.toJson, Label.ofJson?, Label.kinds, hfits, h.expr.readsBack, hpattern.readsBack]

theorem armBody_keepsFit (h : BodiesFaithful room) {value : Json} {arm : ArmBody} {n : Nat}
    (hread : ArmBody.ofJson? (room + 1) value = some arm) (hfits : value.fits n = true) :
    arm.toJson.fits n = true := by
  simp only [ArmBody.ofJson?, bind, Option.bind_eq_some_iff] at hread
  obtain ⟨⟨kind, body⟩, hvariant, hread⟩ := hread
  have hbody := Json.fits_of_variant? hvariant hfits
  simp only at hread
  split at hread
  case h_3 => cases hread
  all_goals
    simp only [Option.bind_eq_some_iff] at hread
    obtain ⟨fields, hfields, hread⟩ := hread
    obtain ⟨inner, rfl, hfit⟩ := Json.fit_of_record? hfields hbody
  · obtain ⟨expr, hexpr, hnode⟩ := hread
    cases hnode
    have hexpr := h.expr.required hfit hexpr
    simp [ArmBody.toJson, hexpr]
  · obtain ⟨block, hblock, hnode⟩ := hread
    cases hnode
    have hblock := h.block.required hfit hblock
    simp [ArmBody.toJson, hblock]

theorem armBody_readsBack (h : BodiesFaithful room) {arm : ArmBody}
    (hfits : arm.toJson.fits (room + 1) = true) :
    ArmBody.ofJson? (room + 1) arm.toJson = some arm := by
  cases arm with
  | _ =>
    simp [ArmBody.toJson] at hfits
    simp [ArmBody.toJson, ArmBody.ofJson?, ArmBody.kinds, hfits, h.expr.readsBack,
      h.block.readsBack]

theorem arm_faithful (h : BodiesFaithful room) :
    Faithful (room + 1) (Arm.ofJson? (room + 1)) Arm.toJson where
  keepsFit := by
    intro value arm n hread hfits
    simp only [Arm.ofJson?, bind, Option.bind_eq_some_iff] at hread
    obtain ⟨fields, hfields, label, hlabel, body, hbody, span, hspan, hnode⟩ := hread
    cases hnode
    obtain ⟨inner, rfl, hfit⟩ := Json.fit_of_record? hfields hfits
    have hlabel := h.label.required hfit hlabel
    have hbody := h.armBody.required hfit hbody
    have hspan := hfit.span hspan
    simp [Arm.toJson, hlabel, hbody, hspan]
  readsBack := by
    intro arm hfits
    obtain ⟨label, body, span⟩ := arm
    simp [Arm.toJson] at hfits
    simp [Arm.toJson, Arm.ofJson?, hfits, h.label.readsBack, h.armBody.readsBack]

theorem block_faithful (h : BodiesFaithful room) :
    Faithful (room + 1) (Block.ofJson? (room + 1)) Block.toJson where
  keepsFit := by
    intro value block n hread hfits
    simp only [Block.ofJson?, Block.ofJsonWith?, bind, Option.bind_eq_some_iff] at hread
    obtain ⟨fields, hfields, stmts, hstmts, span, hspan, hnode⟩ := hread
    cases hnode
    obtain ⟨inner, rfl, hfit⟩ := Json.fit_of_record? hfields hfits
    have hstmts := h.stmt.list.required hfit hstmts
    have hspan := hfit.span hspan
    simp [Block.toJson, hstmts, hspan]
  readsBack := by
    intro block hfits
    have hlist := h.stmt.list.mono (Nat.le_succ room)
    obtain ⟨stmts, span⟩ := block
    simp [Block.toJson] at hfits
    rw [Block.ofJson?]
    exact Block.ofJsonWith?_toJson (hlist.readsBack hfits.1) span

theorem zero : BodiesFaithful 0 := by
  constructor
  all_goals
    constructor
    · intro value node n hread _
      simp [Expr.ofJson?, Stmt.ofJson?, Block.ofJson?, Arm.ofJson?, Label.ofJson?,
        ArmBody.ofJson?] at hread
    · intro node hfits
      cases node <;>
        simp [Expr.toJson, Stmt.toJson, Block.toJson, Arm.toJson, Label.toJson, ArmBody.toJson,
          Json.tagged, Json.fits] at hfits

/-- Bodies are read and written faithfully one level deeper. -/
theorem succ (h : BodiesFaithful room) : BodiesFaithful (room + 1) where
  expr := ⟨h.expr_keepsFit, h.expr_readsBack⟩
  stmt := ⟨h.stmt_keepsFit, h.stmt_readsBack⟩
  block := h.block_faithful
  arm := h.arm_faithful
  label := ⟨h.label_keepsFit, h.label_readsBack⟩
  armBody := ⟨h.armBody_keepsFit, h.armBody_readsBack⟩

end BodiesFaithful

/-- Within any room, the readers of bodies go with their writers. -/
theorem bodies_faithful (room : Nat) : BodiesFaithful room := by
  induction room with
  | zero => exact BodiesFaithful.zero
  | succ room ih => exact ih.succ

end Closedness
