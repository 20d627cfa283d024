import Closedness.Program.Validation
import Mathlib.Logic.Function.Basic

/-!
# Relabelled units

The ids of declarations, places in the source, display names and the names of supertypes are labels:
they tell a reader what is meant. A `Relabeling` puts others in their place, throughout a unit. What
a unit declares and names is relabelled with it (`CompilationUnit.declarations_relabel`,
`CompilationUnit.references_relabel`), so as long as different ids stay different validation comes
to the same verdict (`CompilationUnit.validate_relabel`).
-/

namespace Closedness

/-- Other labels for what units consist of. -/
structure Relabeling where
  decl : DeclId → DeclId := fun id => id
  /-- The places of annotations, expressions and patterns. -/
  span : Span → Span := fun span => span
  /-- The places of everything else. -/
  place : Span → Span := span
  /-- The display names of methods, components and variables. -/
  name : String → String := fun name => name
  supertypes : List String → List String := fun supertypes => supertypes

/-! ## Syntax -/

section Syntax

variable (r : Relabeling)

def Annot.relabel (a : Annot) : Annot :=
  { a with span := r.span a.span }

def Component.relabel (c : Component) : Component :=
  { c with
    id := r.decl c.id
    name := r.name c.name
    annots := c.annots.map (Annot.relabel r)
    span := r.place c.span }

def Param.relabel (p : Param) : Param :=
  { p with
    id := r.decl p.id
    name := r.name p.name
    annots := p.annots.map (Annot.relabel r)
    span := r.place p.span }

def LocalDecl.relabel (d : LocalDecl) : LocalDecl :=
  { d with
    id := r.decl d.id
    name := r.name d.name
    annots := d.annots.map (Annot.relabel r)
    span := r.place d.span }

def PatternVar.relabel (v : PatternVar) : PatternVar :=
  { id := r.decl v.id
    name := r.name v.name
    annots := v.annots.map (Annot.relabel r)
    span := r.place v.span }

mutual

def Pattern.relabel : Pattern → Pattern
  | .typeTest variant var span =>
    .typeTest (r.decl variant) (var.map (PatternVar.relabel r)) (r.span span)
  | .variable var span => .variable (var.relabel r) (r.span span)
  | .record variant components span =>
    .record (r.decl variant) (Pattern.relabelList components) (r.span span)
  | .wildcard span => .wildcard (r.span span)

def Pattern.relabelList : List Pattern → List Pattern
  | [] => []
  | p :: rest => p.relabel :: Pattern.relabelList rest

end

mutual

def Expr.relabel : Expr → Expr
  | .null span => .null (r.span span)
  | .literal type span => .literal type (r.span span)
  | .var decl span => .var (r.decl decl) (r.span span)
  | .self span => .self (r.span span)
  | .field receiver component span =>
    .field (Expr.relabelOption receiver) (r.decl component) (r.span span)
  | .call receiver method args span =>
    .call (Expr.relabelOption receiver) (r.decl method) (Expr.relabelList args) (r.span span)
  | .construct variant args span =>
    .construct (r.decl variant) (Expr.relabelList args) (r.span span)
  | .singleton variant span => .singleton (r.decl variant) (r.span span)
  | .paren inner span => .paren inner.relabel (r.span span)
  | .instanceOf operand pattern span =>
    .instanceOf operand.relabel (pattern.relabel r) (r.span span)
  | .conditional condition thenExpr elseExpr span =>
    .conditional condition.relabel thenExpr.relabel elseExpr.relabel (r.span span)
  | .switch scrutinee arms span =>
    .switch scrutinee.relabel (Arm.relabelList arms) (r.span span)
  | .assign target value span => .assign (r.decl target) value.relabel (r.span span)
  | .other type children span => .other type (Expr.relabelList children) (r.span span)

def Expr.relabelOption : Option Expr → Option Expr
  | none => none
  | some e => some e.relabel

def Expr.relabelList : List Expr → List Expr
  | [] => []
  | e :: rest => e.relabel :: Expr.relabelList rest

def Stmt.relabel : Stmt → Stmt
  | .declare decl init span =>
    .declare (decl.relabel r) (Expr.relabelOption init) (r.place span)
  | .expr expr span => .expr expr.relabel (r.place span)
  | .ifElse condition thenBranch elseBranch span =>
    .ifElse condition.relabel thenBranch.relabel (Block.relabelOption elseBranch) (r.place span)
  | .loop condition body span => .loop condition.relabel body.relabel (r.place span)
  | .switch scrutinee arms span =>
    .switch scrutinee.relabel (Arm.relabelList arms) (r.place span)
  | .ret value span => .ret (Expr.relabelOption value) (r.place span)
  | .block block span => .block block.relabel (r.place span)

def Stmt.relabelList : List Stmt → List Stmt
  | [] => []
  | s :: rest => s.relabel :: Stmt.relabelList rest

def Block.relabel : Block → Block
  | .mk stmts span => .mk (Stmt.relabelList stmts) (r.place span)

def Block.relabelOption : Option Block → Option Block
  | none => none
  | some block => some block.relabel

def Arm.relabelList : List Arm → List Arm
  | [] => []
  | .mk label body span :: rest =>
    .mk label.relabel body.relabel (r.place span) :: Arm.relabelList rest

def Label.relabel : Label → Label
  | .pattern pattern => .pattern (pattern.relabel r)
  | .constant expr => .constant expr.relabel
  | .default => .default

def ArmBody.relabel : ArmBody → ArmBody
  | .expr expr => .expr expr.relabel
  | .block block => .block block.relabel

end

def Method.relabel (m : Method) : Method :=
  { m with
    id := r.decl m.id
    name := r.name m.name
    annots := m.annots.map (Annot.relabel r)
    params := m.params.map (Param.relabel r)
    body := Block.relabelOption r m.body
    span := r.place m.span }

def TypeShape.relabel : TypeShape → TypeShape
  | .plain => .plain
  | .interface => .interface
  | .singleton => .singleton
  | .record components => .record (components.map (Component.relabel r))

def TypeDecl.relabel (t : TypeDecl) : TypeDecl :=
  { t with
    id := r.decl t.id
    annots := t.annots.map (Annot.relabel r)
    shape := t.shape.relabel r
    supertypes := r.supertypes t.supertypes
    methods := t.methods.map (Method.relabel r)
    span := r.place t.span }

/-- The unit under other labels. -/
def CompilationUnit.relabel (u : CompilationUnit) : CompilationUnit :=
  { u with types := u.types.map (TypeDecl.relabel r), methods := u.methods.map (Method.relabel r) }

def Declaration.relabel (d : Declaration) : Declaration :=
  { d with
    id := r.decl d.id
    annots := d.annots.map (Annot.relabel r)
    span := r.place d.span }

def Reference.relabel (ref : Reference) : Reference :=
  { ref with id := r.decl ref.id, span := r.span ref.span }

def UnitError.relabel : UnitError → UnitError
  | .malformed reason => .malformed reason
  | .duplicate id first second => .duplicate (r.decl id) (r.place first) (r.place second)
  | .unknown id role span => .unknown (r.decl id) role (r.span span)

end Syntax

/-! ## What is declared -/

section Declarations

variable (r : Relabeling)

mutual

theorem Pattern.declarations_relabel : ∀ p : Pattern,
    (p.relabel r).declarations = p.declarations.map (Declaration.relabel r)
  | .typeTest _ none _ | .wildcard _ => rfl
  | .typeTest _ (some _) _ | .variable _ _ => rfl
  | .record _ components _ => by
    simp only [Pattern.relabel, Pattern.declarations, Pattern.listDeclarations_relabel components]

theorem Pattern.listDeclarations_relabel : ∀ ps : List Pattern,
    Pattern.listDeclarations (Pattern.relabelList r ps)
      = (Pattern.listDeclarations ps).map (Declaration.relabel r)
  | [] => rfl
  | p :: rest => by
    simp only [Pattern.relabelList, Pattern.listDeclarations, List.map_append,
      Pattern.declarations_relabel p, Pattern.listDeclarations_relabel rest]

end

mutual

/-- A relabelled expression declares the relabelled variables, in order. -/
theorem Expr.declarations_relabel : ∀ e : Expr,
    (e.relabel r).declarations = e.declarations.map (Declaration.relabel r)
  | .null _ | .literal _ _ | .var _ _ | .self _ | .singleton _ _ => rfl
  | .field receiver _ _ => by
    simp only [Expr.relabel, Expr.declarations, Expr.optionDeclarations_relabel receiver]
  | .call receiver _ args _ => by
    simp only [Expr.relabel, Expr.declarations, List.map_append,
      Expr.optionDeclarations_relabel receiver, Expr.listDeclarations_relabel args]
  | .construct _ args _ => by
    simp only [Expr.relabel, Expr.declarations, Expr.listDeclarations_relabel args]
  | .paren inner _ => by
    simp only [Expr.relabel, Expr.declarations, Expr.declarations_relabel inner]
  | .instanceOf operand pattern _ => by
    simp only [Expr.relabel, Expr.declarations, List.map_append, Expr.declarations_relabel operand,
      Pattern.declarations_relabel]
  | .conditional condition thenExpr elseExpr _ => by
    simp only [Expr.relabel, Expr.declarations, List.map_append,
      Expr.declarations_relabel condition, Expr.declarations_relabel thenExpr,
      Expr.declarations_relabel elseExpr]
  | .switch scrutinee arms _ => by
    simp only [Expr.relabel, Expr.declarations, List.map_append,
      Expr.declarations_relabel scrutinee, Arm.listDeclarations_relabel arms]
  | .assign _ value _ => by
    simp only [Expr.relabel, Expr.declarations, Expr.declarations_relabel value]
  | .other _ children _ => by
    simp only [Expr.relabel, Expr.declarations, Expr.listDeclarations_relabel children]

theorem Expr.optionDeclarations_relabel : ∀ e : Option Expr,
    Expr.optionDeclarations (Expr.relabelOption r e)
      = (Expr.optionDeclarations e).map (Declaration.relabel r)
  | none => rfl
  | some e => by
    simp only [Expr.relabelOption, Expr.optionDeclarations, Expr.declarations_relabel e]

theorem Expr.listDeclarations_relabel : ∀ es : List Expr,
    Expr.listDeclarations (Expr.relabelList r es)
      = (Expr.listDeclarations es).map (Declaration.relabel r)
  | [] => rfl
  | e :: rest => by
    simp only [Expr.relabelList, Expr.listDeclarations, List.map_append,
      Expr.declarations_relabel e, Expr.listDeclarations_relabel rest]

theorem Stmt.declarations_relabel : ∀ s : Stmt,
    (s.relabel r).declarations = s.declarations.map (Declaration.relabel r)
  | .declare _ init _ => by
    simp only [Stmt.relabel, Stmt.declarations, List.map_cons,
      Expr.optionDeclarations_relabel init]
    rfl
  | .expr expr _ => by
    simp only [Stmt.relabel, Stmt.declarations, Expr.declarations_relabel expr]
  | .ifElse condition thenBranch elseBranch _ => by
    simp only [Stmt.relabel, Stmt.declarations, List.map_append,
      Expr.declarations_relabel condition, Block.declarations_relabel thenBranch,
      Block.optionDeclarations_relabel elseBranch]
  | .loop condition body _ => by
    simp only [Stmt.relabel, Stmt.declarations, List.map_append,
      Expr.declarations_relabel condition, Block.declarations_relabel body]
  | .switch scrutinee arms _ => by
    simp only [Stmt.relabel, Stmt.declarations, List.map_append,
      Expr.declarations_relabel scrutinee, Arm.listDeclarations_relabel arms]
  | .ret value _ => by
    simp only [Stmt.relabel, Stmt.declarations, Expr.optionDeclarations_relabel value]
  | .block block _ => by
    simp only [Stmt.relabel, Stmt.declarations, Block.declarations_relabel block]

theorem Stmt.listDeclarations_relabel : ∀ ss : List Stmt,
    Stmt.listDeclarations (Stmt.relabelList r ss)
      = (Stmt.listDeclarations ss).map (Declaration.relabel r)
  | [] => rfl
  | s :: rest => by
    simp only [Stmt.relabelList, Stmt.listDeclarations, List.map_append,
      Stmt.declarations_relabel s, Stmt.listDeclarations_relabel rest]

theorem Block.declarations_relabel : ∀ b : Block,
    (b.relabel r).declarations = b.declarations.map (Declaration.relabel r)
  | .mk stmts _ => by
    simp only [Block.relabel, Block.declarations, Stmt.listDeclarations_relabel stmts]

theorem Block.optionDeclarations_relabel : ∀ b : Option Block,
    Block.optionDeclarations (Block.relabelOption r b)
      = (Block.optionDeclarations b).map (Declaration.relabel r)
  | none => rfl
  | some b => by
    simp only [Block.relabelOption, Block.optionDeclarations, Block.declarations_relabel b]

theorem Arm.listDeclarations_relabel : ∀ arms : List Arm,
    Arm.listDeclarations (Arm.relabelList r arms)
      = (Arm.listDeclarations arms).map (Declaration.relabel r)
  | [] => rfl
  | .mk label body _ :: rest => by
    simp only [Arm.relabelList, Arm.listDeclarations, List.map_append,
      Label.declarations_relabel label, ArmBody.declarations_relabel body,
      Arm.listDeclarations_relabel rest]

theorem Label.declarations_relabel : ∀ l : Label,
    (l.relabel r).declarations = l.declarations.map (Declaration.relabel r)
  | .pattern pattern => by
    simp only [Label.relabel, Label.declarations, Pattern.declarations_relabel]
  | .constant expr => by
    simp only [Label.relabel, Label.declarations, Expr.declarations_relabel expr]
  | .default => rfl

theorem ArmBody.declarations_relabel : ∀ b : ArmBody,
    (b.relabel r).declarations = b.declarations.map (Declaration.relabel r)
  | .expr expr => by
    simp only [ArmBody.relabel, ArmBody.declarations, Expr.declarations_relabel expr]
  | .block block => by
    simp only [ArmBody.relabel, ArmBody.declarations, Block.declarations_relabel block]

end

theorem TypeDecl.components_relabel (t : TypeDecl) :
    (t.relabel r).components = t.components.map (Component.relabel r) := by
  simp only [TypeDecl.components, TypeDecl.relabel]
  cases t.shape <;> rfl

theorem TypeDecl.declaration_relabel (t : TypeDecl) :
    (t.relabel r).declaration = t.declaration.relabel r := by
  simp only [TypeDecl.declaration, TypeDecl.relabel]
  cases t.shape <;> rfl

theorem Method.declarations_relabel (m : Method) :
    (m.relabel r).declarations = m.declarations.map (Declaration.relabel r) := by
  have hparams : (m.relabel r).params.map Param.declaration
      = (m.params.map Param.declaration).map (Declaration.relabel r) := by
    simp only [Method.relabel, List.map_map]
    rfl
  rw [Method.declarations, Method.declarations, List.map_cons, List.map_append, hparams,
    ← Block.optionDeclarations_relabel]
  rfl

theorem TypeDecl.declarations_relabel (t : TypeDecl) :
    (t.relabel r).declarations = t.declarations.map (Declaration.relabel r) := by
  have hcomponents : (t.components.map (Component.relabel r)).map Component.declaration
      = (t.components.map Component.declaration).map (Declaration.relabel r) := by
    simp only [List.map_map]
    rfl
  have hmethods : (t.relabel r).methods = t.methods.map (Method.relabel r) := rfl
  rw [TypeDecl.declarations, TypeDecl.declarations, declaration_relabel, components_relabel,
    hcomponents, hmethods, List.map_cons, List.map_append, List.map_flatMap, List.flatMap_map]
  simp only [Method.declarations_relabel]

/-- A relabelled unit declares the relabelled things, in order. -/
theorem CompilationUnit.declarations_relabel (u : CompilationUnit) :
    (u.relabel r).declarations = u.declarations.map (Declaration.relabel r) := by
  simp only [declarations, relabel, List.flatMap_map, TypeDecl.declarations_relabel,
    Method.declarations_relabel, List.map_append, List.map_flatMap]

end Declarations

/-! ## What is named -/

section References

variable (r : Relabeling)

mutual

theorem Pattern.references_relabel : ∀ p : Pattern,
    (p.relabel r).references = p.references.map (Reference.relabel r)
  | .typeTest _ _ _ | .variable _ _ | .wildcard _ => rfl
  | .record _ components _ => by
    simp only [Pattern.relabel, Pattern.references, Pattern.listReferences_relabel components]
    rfl

theorem Pattern.listReferences_relabel : ∀ ps : List Pattern,
    Pattern.listReferences (Pattern.relabelList r ps)
      = (Pattern.listReferences ps).map (Reference.relabel r)
  | [] => rfl
  | p :: rest => by
    simp only [Pattern.relabelList, Pattern.listReferences, List.map_append,
      Pattern.references_relabel p, Pattern.listReferences_relabel rest]

end

mutual

/-- A relabelled expression names the relabelled things, in order. -/
theorem Expr.references_relabel : ∀ e : Expr,
    (e.relabel r).references = e.references.map (Reference.relabel r)
  | .null _ | .literal _ _ | .self _ | .var _ _ | .singleton _ _ => rfl
  | .field receiver _ _ => by
    simp only [Expr.relabel, Expr.references, List.map_cons, Expr.optionReferences_relabel receiver]
    rfl
  | .call receiver _ args _ => by
    simp only [Expr.relabel, Expr.references, List.map_cons, List.map_append,
      Expr.optionReferences_relabel receiver, Expr.listReferences_relabel args]
    rfl
  | .construct _ args _ => by
    simp only [Expr.relabel, Expr.references, List.map_cons, Expr.listReferences_relabel args]
    rfl
  | .paren inner _ => by
    simp only [Expr.relabel, Expr.references, Expr.references_relabel inner]
  | .instanceOf operand pattern _ => by
    simp only [Expr.relabel, Expr.references, List.map_append, Expr.references_relabel operand,
      Pattern.references_relabel]
  | .conditional condition thenExpr elseExpr _ => by
    simp only [Expr.relabel, Expr.references, List.map_append, Expr.references_relabel condition,
      Expr.references_relabel thenExpr, Expr.references_relabel elseExpr]
  | .switch scrutinee arms _ => by
    simp only [Expr.relabel, Expr.references, List.map_append, Expr.references_relabel scrutinee,
      Arm.listReferences_relabel arms]
  | .assign _ value _ => by
    simp only [Expr.relabel, Expr.references, List.map_cons, Expr.references_relabel value]
    rfl
  | .other _ children _ => by
    simp only [Expr.relabel, Expr.references, Expr.listReferences_relabel children]

theorem Expr.optionReferences_relabel : ∀ e : Option Expr,
    Expr.optionReferences (Expr.relabelOption r e)
      = (Expr.optionReferences e).map (Reference.relabel r)
  | none => rfl
  | some e => by
    simp only [Expr.relabelOption, Expr.optionReferences, Expr.references_relabel e]

theorem Expr.listReferences_relabel : ∀ es : List Expr,
    Expr.listReferences (Expr.relabelList r es)
      = (Expr.listReferences es).map (Reference.relabel r)
  | [] => rfl
  | e :: rest => by
    simp only [Expr.relabelList, Expr.listReferences, List.map_append,
      Expr.references_relabel e, Expr.listReferences_relabel rest]

theorem Stmt.references_relabel : ∀ s : Stmt,
    (s.relabel r).references = s.references.map (Reference.relabel r)
  | .declare _ init _ => by
    simp only [Stmt.relabel, Stmt.references, Expr.optionReferences_relabel init]
  | .expr expr _ => by
    simp only [Stmt.relabel, Stmt.references, Expr.references_relabel expr]
  | .ifElse condition thenBranch elseBranch _ => by
    simp only [Stmt.relabel, Stmt.references, List.map_append, Expr.references_relabel condition,
      Block.references_relabel thenBranch, Block.optionReferences_relabel elseBranch]
  | .loop condition body _ => by
    simp only [Stmt.relabel, Stmt.references, List.map_append, Expr.references_relabel condition,
      Block.references_relabel body]
  | .switch scrutinee arms _ => by
    simp only [Stmt.relabel, Stmt.references, List.map_append, Expr.references_relabel scrutinee,
      Arm.listReferences_relabel arms]
  | .ret value _ => by
    simp only [Stmt.relabel, Stmt.references, Expr.optionReferences_relabel value]
  | .block block _ => by
    simp only [Stmt.relabel, Stmt.references, Block.references_relabel block]

theorem Stmt.listReferences_relabel : ∀ ss : List Stmt,
    Stmt.listReferences (Stmt.relabelList r ss)
      = (Stmt.listReferences ss).map (Reference.relabel r)
  | [] => rfl
  | s :: rest => by
    simp only [Stmt.relabelList, Stmt.listReferences, List.map_append, Stmt.references_relabel s,
      Stmt.listReferences_relabel rest]

theorem Block.references_relabel : ∀ b : Block,
    (b.relabel r).references = b.references.map (Reference.relabel r)
  | .mk stmts _ => by
    simp only [Block.relabel, Block.references, Stmt.listReferences_relabel stmts]

theorem Block.optionReferences_relabel : ∀ b : Option Block,
    Block.optionReferences (Block.relabelOption r b)
      = (Block.optionReferences b).map (Reference.relabel r)
  | none => rfl
  | some b => by
    simp only [Block.relabelOption, Block.optionReferences, Block.references_relabel b]

theorem Arm.listReferences_relabel : ∀ arms : List Arm,
    Arm.listReferences (Arm.relabelList r arms)
      = (Arm.listReferences arms).map (Reference.relabel r)
  | [] => rfl
  | .mk label body _ :: rest => by
    simp only [Arm.relabelList, Arm.listReferences, List.map_append, Label.references_relabel label,
      ArmBody.references_relabel body, Arm.listReferences_relabel rest]

theorem Label.references_relabel : ∀ l : Label,
    (l.relabel r).references = l.references.map (Reference.relabel r)
  | .pattern pattern => by
    simp only [Label.relabel, Label.references, Pattern.references_relabel]
  | .constant expr => by
    simp only [Label.relabel, Label.references, Expr.references_relabel expr]
  | .default => rfl

theorem ArmBody.references_relabel : ∀ b : ArmBody,
    (b.relabel r).references = b.references.map (Reference.relabel r)
  | .expr expr => by
    simp only [ArmBody.relabel, ArmBody.references, Expr.references_relabel expr]
  | .block block => by
    simp only [ArmBody.relabel, ArmBody.references, Block.references_relabel block]

end

theorem Method.references_relabel (m : Method) :
    (m.relabel r).references = m.references.map (Reference.relabel r) :=
  Block.optionReferences_relabel r m.body

theorem CompilationUnit.allMethods_relabel (u : CompilationUnit) :
    (u.relabel r).allMethods = u.allMethods.map (Method.relabel r) := by
  simp only [allMethods, relabel, TypeDecl.relabel, List.flatMap_map, List.map_append,
    List.map_flatMap]

/-- A relabelled unit names the relabelled things, in order. -/
theorem CompilationUnit.references_relabel (u : CompilationUnit) :
    (u.relabel r).references = u.references.map (Reference.relabel r) := by
  simp only [references, allMethods_relabel, List.flatMap_map, List.map_flatMap,
    Method.references_relabel]

end References

/-! ## Validation -/

section Validation

variable {r : Relabeling} (hr : Function.Injective r.decl)
include hr

/-- Different ids stay different, so the same declaration is found under an id. -/
theorem Declaration.find?_relabel (id : DeclId) (ds : List Declaration) :
    ((ds.map (relabel r)).find? fun d => d.id = r.decl id) =
      (ds.find? fun d => d.id = id).map (relabel r) := by
  simp only [List.find?_map, Function.comp_def, relabel, hr.eq_iff]

/-- The first declaration that repeats an id is the same one. -/
theorem Declaration.firstRepeat_relabel (seen ds : List Declaration) :
    firstRepeat (seen.map (relabel r)) (ds.map (relabel r))
      = (firstRepeat seen ds).map fun pair => (pair.1.relabel r, pair.2.relabel r) := by
  induction ds generalizing seen with
  | nil => rfl
  | cons d rest ih =>
    have hfind : ((seen.map (relabel r)).find? fun e => e.id = (d.relabel r).id)
        = (seen.find? fun e => e.id = d.id).map (relabel r) := find?_relabel hr d.id seen
    rw [List.map_cons, firstRepeat, firstRepeat, hfind]
    cases seen.find? fun e => e.id = d.id with
    | some earlier => rfl
    | none => exact ih (d :: seen)

/-- The same references resolve. -/
theorem Reference.resolves_relabel (declared : List Declaration) (ref : Reference) :
    (ref.relabel r).resolves (declared.map (Declaration.relabel r)) = ref.resolves declared := by
  have hfind : ((declared.map (Declaration.relabel r)).find? fun d => d.id = (ref.relabel r).id)
      = (declared.find? fun d => d.id = ref.id).map (Declaration.relabel r) :=
    Declaration.find?_relabel hr ref.id declared
  unfold resolves
  rw [hfind]
  cases declared.find? fun d => d.id = ref.id <;> rfl

/-- A relabelled unit has the relabelled defect. -/
theorem CompilationUnit.defect?_relabel (u : CompilationUnit) :
    (u.relabel r).defect? = u.defect?.map (UnitError.relabel r) := by
  have hrepeat := Declaration.firstRepeat_relabel hr [] u.declarations
  rw [List.map_nil] at hrepeat
  simp only [defect?, declarations_relabel, references_relabel, hrepeat]
  cases Declaration.firstRepeat [] u.declarations with
  | some pair => rfl
  | none =>
    simp only [Option.map_none, List.find?_map, Function.comp_def, Reference.resolves_relabel hr,
      Option.map_map]
    rfl

/-- **Validation does not look at labels.** -/
theorem CompilationUnit.validate_relabel (u : CompilationUnit) :
    (u.relabel r).validate =
      match u.validate with
      | .ok _ => .ok (u.relabel r)
      | .error e => .error (e.relabel r) := by
  simp only [validate, defect?_relabel hr]
  cases u.defect? <;> rfl

end Validation

end Closedness
