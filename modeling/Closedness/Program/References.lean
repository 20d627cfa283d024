import Closedness.Program.Declarations

/-!
# The references of a unit

`CompilationUnit.references` lists every place in a body that names a declaration, with the role
the named declaration has to play there. They come in the order in which they are looked up: a node
before its parts, a pattern before the operand it is matched with, and the arms of a switch
expression before its scrutinee (those of a switch statement after it).
-/

namespace Closedness

/-- What a reference expects its declaration to be. -/
inductive Role where
  | variable
  | component
  /-- A method, or a component that is called. -/
  | method
  | record
  | singleton
  | type
deriving DecidableEq

namespace Role

/-- A declaration of the given kind can play the role. -/
def admits : Role → DeclKind → Bool
  | .variable, kind => kind = .variable
  | .component, kind => kind = .component
  | .method, kind => kind = .method || kind = .component
  | .record, kind => kind = .record
  | .singleton, kind => kind = .singleton
  | .type, kind => kind.isType

def name : Role → String
  | .variable => "variable"
  | .component => "component"
  | .method => "method"
  | .record => "record"
  | .singleton => "singleton"
  | .type => "type"

end Role

/-- A place that names a declaration. -/
structure Reference where
  id : DeclId
  role : Role
  span : Span

mutual

def Pattern.references : Pattern → List Reference
  | .typeTest variant _ span => [{ id := variant, role := .type, span }]
  | .variable _ _ | .wildcard _ => []
  | .record variant components span =>
    { id := variant, role := .record, span } :: Pattern.listReferences components

def Pattern.listReferences : List Pattern → List Reference
  | [] => []
  | p :: rest => p.references ++ Pattern.listReferences rest

end

mutual

/-- The references of an expression. -/
def Expr.references : Expr → List Reference
  | .null _ | .literal _ _ | .self _ => []
  | .var decl span => [{ id := decl, role := .variable, span }]
  | .field receiver component span =>
    { id := component, role := .component, span } :: Expr.optionReferences receiver
  | .call receiver method args span =>
    { id := method, role := .method, span } ::
      (Expr.optionReferences receiver ++ Expr.listReferences args)
  | .construct variant args span =>
    { id := variant, role := .record, span } :: Expr.listReferences args
  | .singleton variant span => [{ id := variant, role := .singleton, span }]
  | .paren inner _ => inner.references
  | .instanceOf operand pattern _ => pattern.references ++ operand.references
  | .conditional condition thenExpr elseExpr _ =>
    condition.references ++ thenExpr.references ++ elseExpr.references
  | .switch scrutinee arms _ => Arm.listReferences arms ++ scrutinee.references
  | .assign target value span => { id := target, role := .variable, span } :: value.references
  | .other _ children _ => Expr.listReferences children

def Expr.listReferences : List Expr → List Reference
  | [] => []
  | e :: rest => e.references ++ Expr.listReferences rest

def Expr.optionReferences : Option Expr → List Reference
  | none => []
  | some e => e.references

def Stmt.references : Stmt → List Reference
  | .declare _ init _ => Expr.optionReferences init
  | .expr expr _ => expr.references
  | .ifElse condition thenBranch elseBranch _ =>
    condition.references ++ thenBranch.references ++ Block.optionReferences elseBranch
  | .loop condition body _ => condition.references ++ body.references
  | .switch scrutinee arms _ => scrutinee.references ++ Arm.listReferences arms
  | .ret value _ => Expr.optionReferences value
  | .block block _ => block.references

def Stmt.listReferences : List Stmt → List Reference
  | [] => []
  | s :: rest => s.references ++ Stmt.listReferences rest

def Block.references : Block → List Reference
  | .mk stmts _ => Stmt.listReferences stmts

def Block.optionReferences : Option Block → List Reference
  | none => []
  | some block => block.references

def Arm.listReferences : List Arm → List Reference
  | [] => []
  | .mk label body _ :: rest => label.references ++ body.references ++ Arm.listReferences rest

def Label.references : Label → List Reference
  | .pattern pattern => pattern.references
  | .constant expr => expr.references
  | .default => []

def ArmBody.references : ArmBody → List Reference
  | .expr expr => expr.references
  | .block block => block.references

end

/-- The references of a method's body. -/
def Method.references (m : Method) : List Reference :=
  Block.optionReferences m.body

/-- Every reference of a unit, in the order in which they are looked up. -/
def CompilationUnit.references (u : CompilationUnit) : List Reference :=
  u.allMethods.flatMap Method.references

end Closedness
