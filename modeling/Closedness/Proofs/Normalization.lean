import Closedness.Proofs.Findings
import Closedness.Proofs.Lookups

/-!
# Parentheses and accessors

A value may be written in parentheses, and a component may be read as a field or by calling it.
`CompilationUnit.normalize` writes a unit without either: an expression in parentheses takes their
place, and every field is a call. A valid unit stays valid, because a call may name whatever a field
may (`CompilationUnit.validate_normalize`). The walk looks at the span of an expression from outside
only, and finds the component that a field names, so it is the same walk (`eval_normalize`,
`exec_normalize`).
-/

namespace Closedness

/-! ## Normal forms -/

/-- The expression at another place. -/
def Expr.withSpan (span : Span) : Expr → Expr
  | .null _ => .null span
  | .literal type _ => .literal type span
  | .var decl _ => .var decl span
  | .self _ => .self span
  | .field receiver component _ => .field receiver component span
  | .call receiver method args _ => .call receiver method args span
  | .construct variant args _ => .construct variant args span
  | .singleton variant _ => .singleton variant span
  | .paren inner _ => .paren inner span
  | .instanceOf operand pattern _ => .instanceOf operand pattern span
  | .conditional condition thenExpr elseExpr _ => .conditional condition thenExpr elseExpr span
  | .switch scrutinee arms _ => .switch scrutinee arms span
  | .assign target value _ => .assign target value span
  | .other type children _ => .other type children span

mutual

/-- The expression without parentheses and fields. -/
def Expr.normalize : Expr → Expr
  | .null span => .null span
  | .literal type span => .literal type span
  | .var decl span => .var decl span
  | .self span => .self span
  | .field receiver component span => .call (Expr.normalizeOption receiver) component [] span
  | .call receiver method args span =>
    .call (Expr.normalizeOption receiver) method (Expr.normalizeList args) span
  | .construct variant args span => .construct variant (Expr.normalizeList args) span
  | .singleton variant span => .singleton variant span
  | .paren inner span => inner.normalize.withSpan span
  | .instanceOf operand pattern span => .instanceOf operand.normalize pattern span
  | .conditional condition thenExpr elseExpr span =>
    .conditional condition.normalize thenExpr.normalize elseExpr.normalize span
  | .switch scrutinee arms span => .switch scrutinee.normalize (Arm.normalizeList arms) span
  | .assign target value span => .assign target value.normalize span
  | .other type children span => .other type (Expr.normalizeList children) span

def Expr.normalizeOption : Option Expr → Option Expr
  | none => none
  | some e => some e.normalize

def Expr.normalizeList : List Expr → List Expr
  | [] => []
  | e :: rest => e.normalize :: Expr.normalizeList rest

def Stmt.normalize : Stmt → Stmt
  | .declare decl init span => .declare decl (Expr.normalizeOption init) span
  | .expr expr span => .expr expr.normalize span
  | .ifElse condition thenBranch elseBranch span =>
    .ifElse condition.normalize thenBranch.normalize (Block.normalizeOption elseBranch) span
  | .loop condition body span => .loop condition.normalize body.normalize span
  | .switch scrutinee arms span => .switch scrutinee.normalize (Arm.normalizeList arms) span
  | .ret value span => .ret (Expr.normalizeOption value) span
  | .block block span => .block block.normalize span

def Stmt.normalizeList : List Stmt → List Stmt
  | [] => []
  | s :: rest => s.normalize :: Stmt.normalizeList rest

def Block.normalize : Block → Block
  | .mk stmts span => .mk (Stmt.normalizeList stmts) span

def Block.normalizeOption : Option Block → Option Block
  | none => none
  | some block => some block.normalize

def Arm.normalizeList : List Arm → List Arm
  | [] => []
  | .mk label body span :: rest =>
    .mk label.normalize body.normalize span :: Arm.normalizeList rest

def Label.normalize : Label → Label
  | .pattern pattern => .pattern pattern
  | .constant expr => .constant expr.normalize
  | .default => .default

def ArmBody.normalize : ArmBody → ArmBody
  | .expr expr => .expr expr.normalize
  | .block block => .block block.normalize

end

def Method.normalize (m : Method) : Method :=
  { m with body := Block.normalizeOption m.body }

def TypeDecl.normalize (t : TypeDecl) : TypeDecl :=
  { t with methods := t.methods.map Method.normalize }

/-- The unit without parentheses and fields. -/
def CompilationUnit.normalize (u : CompilationUnit) : CompilationUnit :=
  { u with types := u.types.map TypeDecl.normalize, methods := u.methods.map Method.normalize }

/-! ## What is declared and named -/

theorem Expr.declarations_withSpan (span : Span) (e : Expr) :
    (e.withSpan span).declarations = e.declarations := by
  cases e <;> simp only [withSpan, declarations]

mutual

/-- Normalizing an expression keeps what it declares. -/
theorem Expr.declarations_normalize : ∀ e : Expr, e.normalize.declarations = e.declarations
  | .null _ | .literal _ _ | .var _ _ | .self _ | .singleton _ _ => by rw [Expr.normalize]
  | .field receiver _ _ => by
    simp only [Expr.normalize, Expr.declarations, Expr.listDeclarations, List.append_nil,
      Expr.optionDeclarations_normalize receiver]
  | .call receiver _ args _ => by
    simp only [Expr.normalize, Expr.declarations, Expr.optionDeclarations_normalize receiver,
      Expr.listDeclarations_normalize args]
  | .construct _ args _ => by
    simp only [Expr.normalize, Expr.declarations, Expr.listDeclarations_normalize args]
  | .paren inner span => by
    rw [Expr.normalize, Expr.declarations_withSpan, Expr.declarations,
      Expr.declarations_normalize inner]
  | .instanceOf operand _ _ => by
    simp only [Expr.normalize, Expr.declarations, Expr.declarations_normalize operand]
  | .conditional condition thenExpr elseExpr _ => by
    simp only [Expr.normalize, Expr.declarations, Expr.declarations_normalize condition,
      Expr.declarations_normalize thenExpr, Expr.declarations_normalize elseExpr]
  | .switch scrutinee arms _ => by
    simp only [Expr.normalize, Expr.declarations, Expr.declarations_normalize scrutinee,
      Arm.listDeclarations_normalize arms]
  | .assign _ value _ => by
    simp only [Expr.normalize, Expr.declarations, Expr.declarations_normalize value]
  | .other _ children _ => by
    simp only [Expr.normalize, Expr.declarations, Expr.listDeclarations_normalize children]

theorem Expr.optionDeclarations_normalize : ∀ e : Option Expr,
    Expr.optionDeclarations (Expr.normalizeOption e) = Expr.optionDeclarations e
  | none => by rw [Expr.normalizeOption]
  | some e => by
    simp only [Expr.normalizeOption, Expr.optionDeclarations, Expr.declarations_normalize e]

theorem Expr.listDeclarations_normalize : ∀ es : List Expr,
    Expr.listDeclarations (Expr.normalizeList es) = Expr.listDeclarations es
  | [] => by rw [Expr.normalizeList]
  | e :: rest => by
    simp only [Expr.normalizeList, Expr.listDeclarations, Expr.declarations_normalize e,
      Expr.listDeclarations_normalize rest]

theorem Stmt.declarations_normalize : ∀ s : Stmt, s.normalize.declarations = s.declarations
  | .declare _ init _ => by
    simp only [Stmt.normalize, Stmt.declarations, Expr.optionDeclarations_normalize init]
  | .expr expr _ => by
    simp only [Stmt.normalize, Stmt.declarations, Expr.declarations_normalize expr]
  | .ifElse condition thenBranch elseBranch _ => by
    simp only [Stmt.normalize, Stmt.declarations, Expr.declarations_normalize condition,
      Block.declarations_normalize thenBranch, Block.optionDeclarations_normalize elseBranch]
  | .loop condition body _ => by
    simp only [Stmt.normalize, Stmt.declarations, Expr.declarations_normalize condition,
      Block.declarations_normalize body]
  | .switch scrutinee arms _ => by
    simp only [Stmt.normalize, Stmt.declarations, Expr.declarations_normalize scrutinee,
      Arm.listDeclarations_normalize arms]
  | .ret value _ => by
    simp only [Stmt.normalize, Stmt.declarations, Expr.optionDeclarations_normalize value]
  | .block block _ => by
    simp only [Stmt.normalize, Stmt.declarations, Block.declarations_normalize block]

theorem Stmt.listDeclarations_normalize : ∀ ss : List Stmt,
    Stmt.listDeclarations (Stmt.normalizeList ss) = Stmt.listDeclarations ss
  | [] => by rw [Stmt.normalizeList]
  | s :: rest => by
    simp only [Stmt.normalizeList, Stmt.listDeclarations, Stmt.declarations_normalize s,
      Stmt.listDeclarations_normalize rest]

theorem Block.declarations_normalize : ∀ b : Block, b.normalize.declarations = b.declarations
  | .mk stmts _ => by
    simp only [Block.normalize, Block.declarations, Stmt.listDeclarations_normalize stmts]

theorem Block.optionDeclarations_normalize : ∀ b : Option Block,
    Block.optionDeclarations (Block.normalizeOption b) = Block.optionDeclarations b
  | none => by rw [Block.normalizeOption]
  | some b => by
    simp only [Block.normalizeOption, Block.optionDeclarations, Block.declarations_normalize b]

theorem Arm.listDeclarations_normalize : ∀ arms : List Arm,
    Arm.listDeclarations (Arm.normalizeList arms) = Arm.listDeclarations arms
  | [] => by rw [Arm.normalizeList]
  | .mk label body _ :: rest => by
    simp only [Arm.normalizeList, Arm.listDeclarations, Label.declarations_normalize label,
      ArmBody.declarations_normalize body, Arm.listDeclarations_normalize rest]

theorem Label.declarations_normalize : ∀ l : Label, l.normalize.declarations = l.declarations
  | .pattern _ | .default => by rw [Label.normalize]
  | .constant expr => by
    simp only [Label.normalize, Label.declarations, Expr.declarations_normalize expr]

theorem ArmBody.declarations_normalize : ∀ b : ArmBody, b.normalize.declarations = b.declarations
  | .expr expr => by
    simp only [ArmBody.normalize, ArmBody.declarations, Expr.declarations_normalize expr]
  | .block block => by
    simp only [ArmBody.normalize, ArmBody.declarations, Block.declarations_normalize block]

end

/-- Whatever the references `rs'` name is named in `rs` already, in a role that asks at least as
much. -/
def Reference.Cover (rs rs' : List Reference) : Prop :=
  ∀ r' ∈ rs', ∃ r ∈ rs, r.id = r'.id ∧ ∀ kind, r.role.admits kind → r'.role.admits kind

namespace Reference.Cover

variable {rs rs' qs qs' : List Reference}

theorem refl (rs : List Reference) : Cover rs rs := fun r hr => ⟨r, hr, rfl, fun _ h => h⟩

theorem trans (h : Cover rs rs') (h' : Cover rs' qs) : Cover rs qs := by
  intro q hq
  obtain ⟨r', hr', hid', hrole'⟩ := h' q hq
  obtain ⟨r, hr, hid, hrole⟩ := h r' hr'
  exact ⟨r, hr, hid.trans hid', fun kind hkind => hrole' kind (hrole kind hkind)⟩

theorem append (h : Cover rs rs') (h' : Cover qs qs') : Cover (rs ++ qs) (rs' ++ qs') := by
  intro r' hr'
  rcases List.mem_append.1 hr' with hr' | hr'
  · obtain ⟨r, hr, hcover⟩ := h r' hr'
    exact ⟨r, List.mem_append_left _ hr, hcover⟩
  · obtain ⟨r, hr, hcover⟩ := h' r' hr'
    exact ⟨r, List.mem_append_right _ hr, hcover⟩

theorem single {id : DeclId} {role role' : Role} (span span' : Span)
    (h : ∀ kind, role.admits kind → role'.admits kind) :
    Cover [{ id, role, span }] [{ id, role := role', span := span' }] := by
  intro r' hr'
  rw [List.mem_singleton.1 hr']
  exact ⟨_, List.mem_singleton_self _, rfl, h⟩

/-- The same declaration in a role that asks no more, before references that are covered. -/
theorem cons {id : DeclId} {role role' : Role} (span span' : Span)
    (hrole : ∀ kind, role.admits kind → role'.admits kind) (h : Cover rs rs') :
    Cover ({ id, role, span } :: rs) ({ id, role := role', span := span' } :: rs') :=
  append (single span span' hrole) h

end Reference.Cover

open Reference (Cover)

theorem Expr.references_withSpan (span : Span) (e : Expr) :
    Cover e.references (e.withSpan span).references := by
  cases e <;> simp only [withSpan, references]
  all_goals first | exact .refl _ | exact .cons _ _ (fun _ h => h) (.refl _)

mutual

/-- A normalized expression names nothing new. -/
theorem Expr.references_normalize : ∀ e : Expr, Cover e.references e.normalize.references
  | .null _ | .literal _ _ | .var _ _ | .self _ | .singleton _ _ => by
    rw [Expr.normalize]
    exact .refl _
  | .field receiver _ _ => by
    -- what can be read as a field can be called
    have hrole : ∀ kind, Role.component.admits kind → Role.method.admits kind := by
      intro kind
      cases kind <;> decide
    simp only [Expr.normalize, Expr.references, Expr.listReferences, List.append_nil]
    exact .cons _ _ hrole (Expr.optionReferences_normalize receiver)
  | .call receiver _ args _ => by
    simp only [Expr.normalize, Expr.references]
    exact .cons _ _ (fun _ h => h)
      ((Expr.optionReferences_normalize receiver).append (Expr.listReferences_normalize args))
  | .construct _ args _ => by
    simp only [Expr.normalize, Expr.references]
    exact .cons _ _ (fun _ h => h) (Expr.listReferences_normalize args)
  | .paren inner span => by
    rw [Expr.normalize, Expr.references]
    exact (Expr.references_normalize inner).trans (Expr.references_withSpan span _)
  | .instanceOf operand pattern _ => by
    simp only [Expr.normalize, Expr.references]
    exact (Cover.refl _).append (Expr.references_normalize operand)
  | .conditional condition thenExpr elseExpr _ => by
    simp only [Expr.normalize, Expr.references]
    exact ((Expr.references_normalize condition).append (Expr.references_normalize thenExpr)).append
      (Expr.references_normalize elseExpr)
  | .switch scrutinee arms _ => by
    simp only [Expr.normalize, Expr.references]
    exact (Arm.listReferences_normalize arms).append (Expr.references_normalize scrutinee)
  | .assign _ value _ => by
    simp only [Expr.normalize, Expr.references]
    exact .cons _ _ (fun _ h => h) (Expr.references_normalize value)
  | .other _ children _ => by
    simp only [Expr.normalize, Expr.references]
    exact Expr.listReferences_normalize children

theorem Expr.optionReferences_normalize : ∀ e : Option Expr,
    Cover (Expr.optionReferences e) (Expr.optionReferences (Expr.normalizeOption e))
  | none => by
    rw [Expr.normalizeOption]
    exact .refl _
  | some e => by
    simp only [Expr.normalizeOption, Expr.optionReferences]
    exact Expr.references_normalize e

theorem Expr.listReferences_normalize : ∀ es : List Expr,
    Cover (Expr.listReferences es) (Expr.listReferences (Expr.normalizeList es))
  | [] => by
    rw [Expr.normalizeList]
    exact .refl _
  | e :: rest => by
    simp only [Expr.normalizeList, Expr.listReferences]
    exact (Expr.references_normalize e).append (Expr.listReferences_normalize rest)

theorem Stmt.references_normalize : ∀ s : Stmt, Cover s.references s.normalize.references
  | .declare _ init _ => by
    simp only [Stmt.normalize, Stmt.references]
    exact Expr.optionReferences_normalize init
  | .expr expr _ => by
    simp only [Stmt.normalize, Stmt.references]
    exact Expr.references_normalize expr
  | .ifElse condition thenBranch elseBranch _ => by
    simp only [Stmt.normalize, Stmt.references]
    exact ((Expr.references_normalize condition).append
      (Block.references_normalize thenBranch)).append (Block.optionReferences_normalize elseBranch)
  | .loop condition body _ => by
    simp only [Stmt.normalize, Stmt.references]
    exact (Expr.references_normalize condition).append (Block.references_normalize body)
  | .switch scrutinee arms _ => by
    simp only [Stmt.normalize, Stmt.references]
    exact (Expr.references_normalize scrutinee).append (Arm.listReferences_normalize arms)
  | .ret value _ => by
    simp only [Stmt.normalize, Stmt.references]
    exact Expr.optionReferences_normalize value
  | .block block _ => by
    simp only [Stmt.normalize, Stmt.references]
    exact Block.references_normalize block

theorem Stmt.listReferences_normalize : ∀ ss : List Stmt,
    Cover (Stmt.listReferences ss) (Stmt.listReferences (Stmt.normalizeList ss))
  | [] => by
    rw [Stmt.normalizeList]
    exact .refl _
  | s :: rest => by
    simp only [Stmt.normalizeList, Stmt.listReferences]
    exact (Stmt.references_normalize s).append (Stmt.listReferences_normalize rest)

theorem Block.references_normalize : ∀ b : Block, Cover b.references b.normalize.references
  | .mk stmts _ => by
    simp only [Block.normalize, Block.references]
    exact Stmt.listReferences_normalize stmts

theorem Block.optionReferences_normalize : ∀ b : Option Block,
    Cover (Block.optionReferences b) (Block.optionReferences (Block.normalizeOption b))
  | none => by
    rw [Block.normalizeOption]
    exact .refl _
  | some b => by
    simp only [Block.normalizeOption, Block.optionReferences]
    exact Block.references_normalize b

theorem Arm.listReferences_normalize : ∀ arms : List Arm,
    Cover (Arm.listReferences arms) (Arm.listReferences (Arm.normalizeList arms))
  | [] => by
    rw [Arm.normalizeList]
    exact .refl _
  | .mk label body _ :: rest => by
    simp only [Arm.normalizeList, Arm.listReferences]
    exact ((Label.references_normalize label).append (ArmBody.references_normalize body)).append
      (Arm.listReferences_normalize rest)

theorem Label.references_normalize : ∀ l : Label, Cover l.references l.normalize.references
  | .pattern _ | .default => by
    rw [Label.normalize]
    exact .refl _
  | .constant expr => by
    simp only [Label.normalize, Label.references]
    exact Expr.references_normalize expr

theorem ArmBody.references_normalize : ∀ b : ArmBody, Cover b.references b.normalize.references
  | .expr expr => by
    simp only [ArmBody.normalize, ArmBody.references]
    exact Expr.references_normalize expr
  | .block block => by
    simp only [ArmBody.normalize, ArmBody.references]
    exact Block.references_normalize block

end

/-! ## Valid units -/

theorem Method.declarations_normalize (m : Method) : m.normalize.declarations = m.declarations := by
  simp only [Method.declarations, Method.normalize, Block.optionDeclarations_normalize]
  rfl

theorem TypeDecl.declarations_normalize (t : TypeDecl) :
    t.normalize.declarations = t.declarations := by
  simp only [TypeDecl.declarations, TypeDecl.normalize, List.flatMap_map,
    Method.declarations_normalize]
  rfl

namespace CompilationUnit

variable (u : CompilationUnit)

theorem declarations_normalize : u.normalize.declarations = u.declarations := by
  simp only [declarations, normalize, List.flatMap_map, TypeDecl.declarations_normalize,
    Method.declarations_normalize]

theorem allMethods_normalize : u.normalize.allMethods = u.allMethods.map Method.normalize := by
  simp only [allMethods, normalize, TypeDecl.normalize, List.flatMap_map, List.map_append,
    List.map_flatMap]

/-- A normalized unit names nothing new. -/
theorem references_normalize : Cover u.references u.normalize.references := by
  rw [references, references, allMethods_normalize]
  induction u.allMethods with
  | nil => exact .refl _
  | cons m rest ih => exact (Block.optionReferences_normalize m.body).append ih

variable {u}

/-- A unit stays valid without parentheses and fields. -/
theorem validate_normalize (hu : u.validate = .ok u) : u.normalize.validate = .ok u.normalize := by
  obtain ⟨hrepeat, hresolves⟩ := validate_eq_ok_iff.1 hu
  rw [validate_eq_ok_iff, declarations_normalize]
  refine ⟨hrepeat, fun r' hr' => ?_⟩
  obtain ⟨r, hr, hid, hrole⟩ := u.references_normalize r' hr'
  have hresolves := hresolves r hr
  unfold Reference.resolves at hresolves ⊢
  rw [← hid]
  split at hresolves
  · exact hrole _ hresolves
  · cases hresolves

/-- Normalizing changes bodies only. -/
theorem header_normalize : u.normalize.header = u.header := by
  simp only [header, normalize, List.map_map]
  congr 2
  funext t
  simp only [Function.comp_apply, TypeDecl.header, TypeDecl.normalize, List.map_map]
  rfl

end CompilationUnit

/-! ## Walks -/

namespace Expr

theorem span_withSpan (span : Span) (e : Expr) : (e.withSpan span).span = span := by
  cases e <;> rfl

theorem isNullLiteral_withSpan (span : Span) (e : Expr) :
    (e.withSpan span).isNullLiteral = e.isNullLiteral := by
  cases e <;> rfl

theorem staticType?_withSpan (ctx : Context) (env : Env) (span : Span) (e : Expr) :
    (e.withSpan span).staticType? ctx env = e.staticType? ctx env := by
  cases e <;> simp only [withSpan, staticType?]

theorem span_normalize (e : Expr) : e.normalize.span = e.span := by
  cases e with
  | paren inner span => rw [normalize, span_withSpan, Expr.span]
  | _ => simp only [normalize, Expr.span]

theorem isNullLiteral_normalize : ∀ e : Expr, e.normalize.isNullLiteral = e.isNullLiteral
  | .paren inner span => by
    rw [normalize, isNullLiteral_withSpan, isNullLiteral_normalize inner]
    rfl
  | .null _ | .literal _ _ | .var _ _ | .self _ | .singleton _ _ => by rw [normalize]
  | .field _ _ _ | .call _ _ _ _ | .construct _ _ _ | .instanceOf _ _ _ | .conditional _ _ _ _
  | .switch _ _ _ | .assign _ _ _ | .other _ _ _ => by
    rw [normalize]
    rfl

end Expr

/-- Evaluating an expression does not look at its own place. -/
theorem eval_withSpan (ctx : Context) (span : Span) (e : Expr) :
    eval ctx (e.withSpan span) = eval ctx e := by
  cases e <;> simp only [Expr.withSpan, eval]

theorem Arm.any_isDefault_normalize : ∀ arms : List Arm,
    (Arm.normalizeList arms).any isDefault = arms.any isDefault
  | [] => by rw [Arm.normalizeList]
  | .mk label body span :: rest => by
    have hlabel : (Arm.mk label.normalize body.normalize span).isDefault
        = (Arm.mk label body span).isDefault := by
      cases label <;> simp only [Label.normalize, isDefault, Arm.label]
    rw [Arm.normalizeList, List.any_cons, List.any_cons, hlabel, any_isDefault_normalize rest]

section Walks

variable {ctx : Context}

/-- To call a component is to read it. -/
theorem Model.callResult_component {model : Model} {component : DeclId}
    (h : (model.component? component).isSome) (receiver self : Option ValueLevel) :
    model.callResult component receiver self =
      model.accessLevel component (receiver.getD (self.getD .inherit)) := by
  obtain ⟨c, hc⟩ := Option.isSome_iff_exists.1 h
  rw [callResult, hc]

/-- A normalized expression has the same static type. -/
theorem Expr.staticType?_normalize (env : Env) : ∀ e : Expr,
    Reference.AllIn (Lookup.Succeeds ctx.model) e.references →
    e.normalize.staticType? ctx env = e.staticType? ctx env
  | .null _, _ | .literal _ _, _ | .var _ _, _ | .self _, _ | .call _ _ _ _, _
  | .construct _ _ _, _ | .singleton _ _, _ | .instanceOf _ _ _, _ | .switch _ _ _, _
  | .other _ _ _, _ => by
    simp only [normalize, staticType?]
  | .field receiver component _, hr => by
    have hcomponent : (ctx.model.component? component).isSome := hr.head rfl
    obtain ⟨c, hc⟩ := Option.isSome_iff_exists.1 hcomponent
    simp only [normalize, staticType?, Model.componentType?, hc, Option.map_some, Option.some_or]
  | .paren inner span, hr => by
    rw [normalize, staticType?_withSpan, staticType?]
    exact staticType?_normalize env inner hr
  | .conditional condition thenExpr elseExpr _, hr => by
    have hthen := (Reference.allIn_append.1 (Reference.allIn_append.1 hr).1).2
    rw [normalize, staticType?, staticType?, staticType?_normalize env thenExpr hthen]
  | .assign target value _, hr => by
    rw [normalize, staticType?, staticType?, staticType?_normalize env value hr.tail]

theorem Expr.keepsMarker_normalize (env : Env) (declared : Option String) {init : Expr}
    (hr : Reference.AllIn (Lookup.Succeeds ctx.model) init.references) :
    init.normalize.keepsMarker ctx env declared = init.keepsMarker ctx env declared := by
  unfold keepsMarker
  rw [isNullLiteral_normalize, staticType?_normalize env init hr]

theorem initLocal_normalize (decl : LocalDecl) (resolution : Resolution) {init : Expr}
    (hr : Reference.AllIn (Lookup.Succeeds ctx.model) init.references) (value : ValueLevel) :
    initLocal ctx decl resolution init.normalize value =
      initLocal ctx decl resolution init value := by
  simp only [initLocal, Expr.span_normalize, Expr.staticType?_normalize _ init hr,
    Expr.keepsMarker_normalize _ _ hr]

-- a walk differs at fields only, and a field of a valid unit names a component
mutual

/-- **A normalized expression is evaluated like the original**, if what it names is found. -/
theorem eval_normalize : ∀ e : Expr,
    Reference.AllIn (Lookup.Succeeds ctx.model) e.references →
    eval ctx e.normalize = eval ctx e
  | .null _, _ | .literal _ _, _ | .var _ _, _ | .self _, _ | .singleton _ _, _ => by
    rw [Expr.normalize]
  | .field receiver component _, hr => by
    have hcomponent : (ctx.model.component? component).isSome := hr.head rfl
    rw [Expr.normalize, eval, eval, evalOption_normalize receiver hr.tail]
    simp only [Model.callResult_component hcomponent, evalArgs]
    rfl
  | .call receiver method args _, hr => by
    obtain ⟨hreceiver, hargs⟩ := Reference.allIn_append.1 hr.tail
    rw [Expr.normalize, eval, eval, evalOption_normalize receiver hreceiver,
      evalArgs_normalize args hargs]
  | .construct variant args _, hr => by
    rw [Expr.normalize, eval, eval, evalArgs_normalize args hr.tail]
  | .paren inner span, hr => by
    rw [Expr.normalize, eval_withSpan, eval]
    exact eval_normalize inner hr
  | .instanceOf operand pattern _, hr => by
    rw [Expr.normalize, eval, eval, eval_normalize operand (Reference.allIn_append.1 hr).2]
  | .conditional condition thenExpr elseExpr _, hr => by
    obtain ⟨hboth, helse⟩ := Reference.allIn_append.1 hr
    obtain ⟨hcondition, hthen⟩ := Reference.allIn_append.1 hboth
    rw [Expr.normalize, eval, eval, eval_normalize condition hcondition,
      eval_normalize thenExpr hthen, eval_normalize elseExpr helse]
  | .switch scrutinee arms _, hr => by
    obtain ⟨harms, hscrutinee⟩ := Reference.allIn_append.1 hr
    rw [Expr.normalize, eval, eval, eval_normalize scrutinee hscrutinee]
    simp only [Arm.any_isDefault_normalize, runArms_normalize arms harms]
  | .assign target value _, hr => by
    rw [Expr.normalize, eval, eval, eval_normalize value hr.tail, Expr.span_normalize]
  | .other _ children _, hr => by
    rw [Expr.normalize, eval, eval, evalArgs_normalize children hr]

theorem evalOption_normalize : ∀ e : Option Expr,
    Reference.AllIn (Lookup.Succeeds ctx.model) (Expr.optionReferences e) →
    evalOption ctx (Expr.normalizeOption e) = evalOption ctx e
  | none, _ => by rw [Expr.normalizeOption]
  | some e, hr => by rw [Expr.normalizeOption, evalOption, evalOption, eval_normalize e hr]

theorem evalArgs_normalize : ∀ es : List Expr,
    Reference.AllIn (Lookup.Succeeds ctx.model) (Expr.listReferences es) →
    ∀ (required : Nat → Option Level) (index : Nat),
    evalArgs ctx required index (Expr.normalizeList es) = evalArgs ctx required index es
  | [], _, required, index => by rw [Expr.normalizeList]
  | e :: rest, hr, required, index => by
    obtain ⟨he, hrest⟩ := Reference.allIn_append.1 hr
    rw [Expr.normalizeList, evalArgs, evalArgs, eval_normalize e he, Expr.span_normalize,
      evalArgs_normalize rest hrest]

theorem runArms_normalize : ∀ arms : List Arm,
    Reference.AllIn (Lookup.Succeeds ctx.model) (Arm.listReferences arms) →
    ∀ scrutinee : Evaluated,
    runArms ctx scrutinee (Arm.normalizeList arms) = runArms ctx scrutinee arms
  | [], _, scrutinee => by rw [Arm.normalizeList]
  | .mk label body _ :: rest, hr, scrutinee => by
    obtain ⟨harm, hrest⟩ := Reference.allIn_append.1 hr
    obtain ⟨hlabel, hbody⟩ := Reference.allIn_append.1 harm
    rw [Arm.normalizeList, runArms, runArms, bindLabel_normalize label hlabel,
      runBody_normalize body hbody, runArms_normalize rest hrest]

theorem bindLabel_normalize : ∀ label : Label,
    Reference.AllIn (Lookup.Succeeds ctx.model) label.references →
    ∀ scrutinee : Evaluated, bindLabel ctx scrutinee label.normalize = bindLabel ctx scrutinee label
  | .pattern _, _, scrutinee | .default, _, scrutinee => by rw [Label.normalize]
  | .constant expr, hr, scrutinee => by
    rw [Label.normalize, bindLabel, bindLabel, eval_normalize expr hr]

theorem runBody_normalize : ∀ body : ArmBody,
    Reference.AllIn (Lookup.Succeeds ctx.model) body.references →
    runBody ctx body.normalize = runBody ctx body
  | .expr expr, hr => by rw [ArmBody.normalize, runBody, runBody, eval_normalize expr hr]
  | .block block, hr => by rw [ArmBody.normalize, runBody, runBody, execBlock_normalize block hr]

/-- **A normalized statement is executed like the original**, if what it names is found. -/
theorem exec_normalize : ∀ s : Stmt,
    Reference.AllIn (Lookup.Succeeds ctx.model) s.references →
    exec ctx s.normalize = exec ctx s
  | .declare decl none _, _ => by rw [Stmt.normalize, Expr.normalizeOption]
  | .declare decl (some init) _, hr => by
    rw [Stmt.normalize, Expr.normalizeOption, exec, exec, eval_normalize init hr]
    simp only [initLocal_normalize decl _ hr]
  | .expr expr _, hr => by rw [Stmt.normalize, exec, exec, eval_normalize expr hr]
  | .ifElse condition thenBranch elseBranch _, hr => by
    obtain ⟨hboth, helse⟩ := Reference.allIn_append.1 hr
    obtain ⟨hcondition, hthen⟩ := Reference.allIn_append.1 hboth
    rw [Stmt.normalize, exec, exec, eval_normalize condition hcondition,
      execBlock_normalize thenBranch hthen, execOption_normalize elseBranch helse]
  | .loop condition body _, hr => by
    obtain ⟨hcondition, hbody⟩ := Reference.allIn_append.1 hr
    rw [Stmt.normalize, exec, exec, eval_normalize condition hcondition,
      execBlock_normalize body hbody]
  | .switch scrutinee arms _, hr => by
    obtain ⟨hscrutinee, harms⟩ := Reference.allIn_append.1 hr
    rw [Stmt.normalize, exec, exec, eval_normalize scrutinee hscrutinee]
    simp only [Arm.any_isDefault_normalize, runArms_normalize arms harms]
  | .ret none _, _ => by rw [Stmt.normalize, Expr.normalizeOption]
  | .ret (some value) _, hr => by
    rw [Stmt.normalize, Expr.normalizeOption, exec, exec, eval_normalize value hr,
      Expr.span_normalize]
  | .block block _, hr => by rw [Stmt.normalize, exec, exec, execBlock_normalize block hr]

theorem execAll_normalize : ∀ stmts : List Stmt,
    Reference.AllIn (Lookup.Succeeds ctx.model) (Stmt.listReferences stmts) →
    execAll ctx (Stmt.normalizeList stmts) = execAll ctx stmts
  | [], _ => by rw [Stmt.normalizeList]
  | s :: rest, hr => by
    obtain ⟨hs, hrest⟩ := Reference.allIn_append.1 hr
    rw [Stmt.normalizeList, execAll, execAll, exec_normalize s hs, execAll_normalize rest hrest]

theorem execBlock_normalize : ∀ block : Block,
    Reference.AllIn (Lookup.Succeeds ctx.model) block.references →
    execBlock ctx block.normalize = execBlock ctx block
  | .mk stmts _, hr => by
    rw [Block.normalize, execBlock, execBlock, execAll_normalize stmts hr]

theorem execOption_normalize : ∀ block : Option Block,
    Reference.AllIn (Lookup.Succeeds ctx.model) (Block.optionReferences block) →
    execOption ctx (Block.normalizeOption block) = execOption ctx block
  | none, _ => by rw [Block.normalizeOption]
  | some block, hr => by
    rw [Block.normalizeOption, execOption, execOption, execBlock_normalize block hr]

end

end Walks

/-! ## Units -/

/-- A normalized method logs what the original does. -/
theorem checkMethod_normalize {names : Names} {model : Model} {m : Method}
    (hr : Reference.AllIn (Lookup.Succeeds model) m.references) :
    checkMethod names model m.normalize = checkMethod names model m := by
  have hctx : Context.ofMethod names model m.normalize = Context.ofMethod names model m := rfl
  have hbody : m.normalize.body = Block.normalizeOption m.body := rfl
  rw [checkMethod_eq, checkMethod_eq, hbody, hctx]
  cases hm : m.body with
  | none => rw [Block.normalizeOption]
  | some body =>
    obtain ⟨stmts, span⟩ := body
    have hstmts : Reference.AllIn (Lookup.Succeeds model) (Stmt.listReferences stmts) := by
      simpa [Method.references, hm, Block.optionReferences, Block.references] using hr
    have hexec : execAll (.ofMethod names model m) (Stmt.normalizeList stmts)
        = execAll (.ofMethod names model m) stmts := execAll_normalize stmts hstmts
    simp only [Block.normalizeOption, Block.normalize, Block.stmts, hexec]
    rfl

/-- A valid unit logs the same without parentheses and fields. -/
theorem checkLog_normalize (names : Names) {u : CompilationUnit} (hu : u.validate = .ok u) :
    checkLog names u.normalize = checkLog names u := by
  rw [checkLog_eq, checkLog_eq, Model.log_congr u.header_normalize, u.allMethods_normalize,
    List.flatMap_map]
  congr 1
  refine List.flatMap_congr fun m hm => ?_
  rw [checkMethod_congr u.header_normalize, checkMethod_normalize]
  intro r hr l hl
  exact Reference.lookup_succeeds hu (List.mem_flatMap.2 ⟨m, hm, hr⟩) hl

/-- **Parentheses and the way components are read make no difference.** A valid unit stays valid
when every expression in parentheses takes their place and every field is written as a call, and it
has the same report. -/
theorem normalize_keeps_report {u : CompilationUnit} (hu : u.validate = .ok u) :
    u.normalize.validate = .ok u.normalize ∧
      ∀ config : Config, check config u.normalize = check config u := by
  refine ⟨CompilationUnit.validate_normalize hu, fun config => ?_⟩
  have hlog : runLog config u.normalize = runLog config u := by
    rw [runLog_eq_filter, runLog_eq_filter, checkLog_normalize _ hu]
  simp only [check, hlog]
  rfl

/-! ## A component read in parentheses -/

/-- `record Box(@Bound Term inner) { @Closed Term get() { return …; } }` -/
def boxReturning (value : Expr) : CompilationUnit :=
  let inner : Component :=
    { id := ⟨1⟩, name := "inner", type := "Term", annots := [{ name := "Bound", span := .spot 1 }],
      span := .spot 1 }
  let get : Method :=
    { id := ⟨2⟩, name := "get", isStatic := false,
      annots := [{ name := "Closed", span := .spot 2 }],
      returnType := some "Term", params := [],
      body := some (.mk [.ret (some value) (.spot 3)] (.spot 3)), span := .spot 2 }
  { name := "box"
    types := [
      { id := ⟨0⟩, name := "Box", annots := [], shape := .record [inner], supertypes := ["Term"],
        methods := [get], span := .spot 0 }]
    methods := [] }

/-- To return `(inner)` is to return `inner()`, at the place of the parentheses. -/
theorem normalize_keeps_report_box :
    let written := boxReturning (.paren (.field none ⟨1⟩ (.spot 5)) (.spot 4))
    let normal := boxReturning (.call none ⟨1⟩ [] (.spot 4))
    written.validate = .ok written ∧ written.normalize = normal ∧ normal.validate = .ok normal ∧
      check {} normal = check {} written ∧
      (check {} written).diagnostics = [.levelMismatch (.spot 4) .closed .bound] := by
  intro written normal
  have hvalid : written.validate = .ok written := rfl
  have hnormal : written.normalize = normal := rfl
  obtain ⟨hstays, hreport⟩ := normalize_keeps_report hvalid
  rw [hnormal] at hstays
  have hsame := hreport {}
  rw [hnormal] at hsame
  exact ⟨hvalid, hnormal, hstays, hsame, List.mergeSort_singleton _⟩

end Closedness
