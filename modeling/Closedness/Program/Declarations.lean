import Closedness.Program.Basic

/-!
# The declarations of a unit

`CompilationUnit.declarations` lists everything a unit declares, in the order of its source: each
type with its components and methods, each method with its parameters and the variables of its
body. A declared local comes before its initialiser, the variables of an `instanceOf` pattern after
its operand, and those of a switch after its scrutinee, arm by arm.
-/

namespace Closedness

/-- What a declaration introduces. -/
inductive DeclKind where
  | plainType
  | interface
  | singleton
  | record
  | component
  | method
  /-- A parameter, a local or a pattern variable. -/
  | variable
deriving DecidableEq

namespace DeclKind

/-- The declaration introduces a type. -/
def isType : DeclKind → Bool
  | .plainType | .interface | .singleton | .record => true
  | .component | .method | .variable => false

end DeclKind

/-- A declaration, apart from what it contains. -/
structure Declaration where
  id : DeclId
  kind : DeclKind
  annots : List Annot
  span : Span

/-! ## Headers -/

/-- The kind of declaration a type of the given shape is. -/
def TypeShape.declKind : TypeShape → DeclKind
  | .plain => .plainType
  | .interface => .interface
  | .singleton => .singleton
  | .record _ => .record

def Component.declaration (c : Component) : Declaration :=
  { id := c.id, kind := .component, annots := c.annots, span := c.span }

def Param.declaration (p : Param) : Declaration :=
  { id := p.id, kind := .variable, annots := p.annots, span := p.span }

def LocalDecl.declaration (d : LocalDecl) : Declaration :=
  { id := d.id, kind := .variable, annots := d.annots, span := d.span }

def PatternVar.declaration (v : PatternVar) : Declaration :=
  { id := v.id, kind := .variable, annots := v.annots, span := v.span }

/-- The declaration of a method, without its parameters and body. -/
def Method.declaration (m : Method) : Declaration :=
  { id := m.id, kind := .method, annots := m.annots, span := m.span }

/-- The declaration of a type, without its components and methods. -/
def TypeDecl.declaration (t : TypeDecl) : Declaration :=
  { id := t.id, kind := t.shape.declKind, annots := t.annots, span := t.span }

/-! ## Bodies -/

mutual

/-- The variables of a pattern. -/
def Pattern.declarations : Pattern → List Declaration
  | .typeTest _ none _ => []
  | .typeTest _ (some var) _ => [var.declaration]
  | .variable var _ => [var.declaration]
  | .record _ components _ => Pattern.listDeclarations components
  | .wildcard _ => []

/-- The variables of several patterns. -/
def Pattern.listDeclarations : List Pattern → List Declaration
  | [] => []
  | p :: rest => p.declarations ++ Pattern.listDeclarations rest

end

mutual

/-- The variables an expression declares. -/
def Expr.declarations : Expr → List Declaration
  | .null _ | .literal _ _ | .var _ _ | .self _ | .singleton _ _ => []
  | .field receiver _ _ => Expr.optionDeclarations receiver
  | .call receiver _ args _ => Expr.optionDeclarations receiver ++ Expr.listDeclarations args
  | .construct _ args _ => Expr.listDeclarations args
  | .paren inner _ => inner.declarations
  | .instanceOf operand pattern _ => operand.declarations ++ pattern.declarations
  | .conditional condition thenExpr elseExpr _ =>
    condition.declarations ++ thenExpr.declarations ++ elseExpr.declarations
  | .switch scrutinee arms _ => scrutinee.declarations ++ Arm.listDeclarations arms
  | .assign _ value _ => value.declarations
  | .other _ children _ => Expr.listDeclarations children

def Expr.listDeclarations : List Expr → List Declaration
  | [] => []
  | e :: rest => e.declarations ++ Expr.listDeclarations rest

def Expr.optionDeclarations : Option Expr → List Declaration
  | none => []
  | some e => e.declarations

/-- The variables a statement declares. -/
def Stmt.declarations : Stmt → List Declaration
  | .declare decl init _ => decl.declaration :: Expr.optionDeclarations init
  | .expr expr _ => expr.declarations
  | .ifElse condition thenBranch elseBranch _ =>
    condition.declarations ++ thenBranch.declarations ++ Block.optionDeclarations elseBranch
  | .loop condition body _ => condition.declarations ++ body.declarations
  | .switch scrutinee arms _ => scrutinee.declarations ++ Arm.listDeclarations arms
  | .ret value _ => Expr.optionDeclarations value
  | .block block _ => block.declarations

def Stmt.listDeclarations : List Stmt → List Declaration
  | [] => []
  | s :: rest => s.declarations ++ Stmt.listDeclarations rest

def Block.declarations : Block → List Declaration
  | .mk stmts _ => Stmt.listDeclarations stmts

def Block.optionDeclarations : Option Block → List Declaration
  | none => []
  | some block => block.declarations

def Arm.listDeclarations : List Arm → List Declaration
  | [] => []
  | .mk label body _ :: rest => label.declarations ++ body.declarations ++ Arm.listDeclarations rest

def Label.declarations : Label → List Declaration
  | .pattern pattern => pattern.declarations
  | .constant expr => expr.declarations
  | .default => []

def ArmBody.declarations : ArmBody → List Declaration
  | .expr expr => expr.declarations
  | .block block => block.declarations

end

/-! ## Units -/

/-- What a method declares: itself, its parameters and the variables of its body. -/
def Method.declarations (m : Method) : List Declaration :=
  m.declaration :: (m.params.map Param.declaration ++ Block.optionDeclarations m.body)

/-- What a type declares: itself, its components and what its methods declare. -/
def TypeDecl.declarations (t : TypeDecl) : List Declaration :=
  t.declaration ::
    (t.components.map Component.declaration ++ t.methods.flatMap Method.declarations)

/-- Everything a unit declares, in the order of its source. -/
def CompilationUnit.declarations (u : CompilationUnit) : List Declaration :=
  u.types.flatMap TypeDecl.declarations ++ u.methods.flatMap Method.declarations

end Closedness
