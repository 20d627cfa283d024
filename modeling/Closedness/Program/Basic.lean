import Closedness.Span

/-!
# Programs under analysis

A `CompilationUnit` is the part of a program that one source file declares: types with their
record components and methods, and method bodies made of statements, expressions and patterns.
Names are already resolved, so references carry a `DeclId`; names and type names remain for
messages and for comparing static types.

Expressions, statements, blocks and switch arms are one mutual family, because a switch may stand
in an expression and its arms may hold blocks. Patterns hold no expressions and stand apart.
-/

namespace Closedness

/-- An annotation on a declaration, with or without a qualifier: `Closed`, `terms.Bound`. -/
structure Annot where
  name : String
  span : Span
deriving DecidableEq

namespace Annot

/-- The name without its qualifier: what follows the last point. -/
def simpleName (a : Annot) : String :=
  String.ofList (a.name.toList.reverse.takeWhile (· ≠ '.')).reverse

end Annot

/-! ## Declarations in headers -/

/-- A component of a record. -/
structure Component where
  id : DeclId
  name : String
  /-- Name of the static type. -/
  type : String
  annots : List Annot
  span : Span
deriving DecidableEq

/-- A parameter of a method. -/
structure Param where
  id : DeclId
  name : String
  /-- Name of the static type; of one element, when the parameter takes any number of arguments. -/
  type : String
  annots : List Annot
  /-- The parameter takes any number of arguments. -/
  isVarargs : Bool
  span : Span
deriving DecidableEq

/-- A variable declared in a body. -/
structure LocalDecl where
  id : DeclId
  name : String
  /-- Name of the declared type; `none` when the type is inferred. -/
  type : Option String
  annots : List Annot
  span : Span
deriving DecidableEq

/-- A variable that a pattern introduces. -/
structure PatternVar where
  id : DeclId
  name : String
  annots : List Annot
  span : Span
deriving DecidableEq

/-! ## Bodies -/

/-- What a matched value is compared with. -/
inductive Pattern where
  /-- The value is of the given type; the variable, if any, names it. -/
  | typeTest (variant : DeclId) (var : Option PatternVar) (span : Span)
  /-- Any value, under a name. -/
  | variable (var : PatternVar) (span : Span)
  /-- The value is of the given record type and its components match in turn. -/
  | record (variant : DeclId) (components : List Pattern) (span : Span)
  /-- Any value. -/
  | wildcard (span : Span)

namespace Pattern

def span : Pattern → Span
  | .typeTest _ _ span | .variable _ span | .record _ _ span | .wildcard span => span

end Pattern

mutual

/-- An expression. -/
inductive Expr where
  | null (span : Span)
  /-- A number, text or truth value, with the name of its static type. -/
  | literal (type : String) (span : Span)
  /-- The value of a local, a parameter or a pattern variable. -/
  | var (decl : DeclId) (span : Span)
  /-- The object whose method runs. -/
  | self (span : Span)
  /-- A component of the receiver; without a receiver, of the object whose method runs. -/
  | field (receiver : Option Expr) (component : DeclId) (span : Span)
  /-- A method call; when a component is called, the call reads that component. -/
  | call (receiver : Option Expr) (method : DeclId) (args : List Expr) (span : Span)
  /-- A new value of a record type. -/
  | construct (variant : DeclId) (args : List Expr) (span : Span)
  /-- The one value of a singleton type. -/
  | singleton (variant : DeclId) (span : Span)
  | paren (inner : Expr) (span : Span)
  | instanceOf (operand : Expr) (pattern : Pattern) (span : Span)
  | conditional (condition thenExpr elseExpr : Expr) (span : Span)
  | switch (scrutinee : Expr) (arms : List Arm) (span : Span)
  | assign (target : DeclId) (value : Expr) (span : Span)
  /-- Any other expression: its parts are evaluated in order and it has no level of its own. -/
  | other (type : Option String) (children : List Expr) (span : Span)

/-- A statement. -/
inductive Stmt where
  | declare (decl : LocalDecl) (init : Option Expr) (span : Span)
  | expr (expr : Expr) (span : Span)
  | ifElse (condition : Expr) (thenBranch : Block) (elseBranch : Option Block) (span : Span)
  | loop (condition : Expr) (body : Block) (span : Span)
  | switch (scrutinee : Expr) (arms : List Arm) (span : Span)
  | ret (value : Option Expr) (span : Span)
  | block (block : Block) (span : Span)

/-- Statements with a scope of their own. -/
inductive Block where
  | mk (stmts : List Stmt) (span : Span)

/-- A label and what it leads to. -/
inductive Arm where
  | mk (label : Label) (body : ArmBody) (span : Span)

/-- When an arm of a switch is taken. -/
inductive Label where
  | pattern (pattern : Pattern)
  | constant (expr : Expr)
  | default

/-- What an arm of a switch does. -/
inductive ArmBody where
  | expr (expr : Expr)
  | block (block : Block)

end

namespace Expr

def span : Expr → Span
  | .null span | .literal _ span | .var _ span | .self span | .field _ _ span | .call _ _ _ span
  | .construct _ _ span | .singleton _ span | .paren _ span | .instanceOf _ _ span
  | .conditional _ _ _ span | .switch _ _ span | .assign _ _ span | .other _ _ span => span

/-- The expression inside any number of parentheses. -/
def unparenthesized : Expr → Expr
  | .paren inner _ => inner.unparenthesized
  | e => e

/-- The null literal, inside any number of parentheses. -/
def isNullLiteral (e : Expr) : Bool :=
  match e.unparenthesized with
  | .null _ => true
  | _ => false

end Expr

namespace Stmt

def span : Stmt → Span
  | .declare _ _ span | .expr _ span | .ifElse _ _ _ span | .loop _ _ span | .switch _ _ span
  | .ret _ span | .block _ span => span

end Stmt

namespace Block

def stmts : Block → List Stmt
  | .mk stmts _ => stmts

def span : Block → Span
  | .mk _ span => span

end Block

namespace Arm

def label : Arm → Label
  | .mk label _ _ => label

/-- The arm is taken when no other is. -/
def isDefault (arm : Arm) : Bool :=
  match arm.label with
  | .default => true
  | _ => false

end Arm

/-! ## Types and units -/

/-- A method; its annotations describe the value it returns. -/
structure Method where
  id : DeclId
  name : String
  isStatic : Bool
  annots : List Annot
  /-- Name of the return type; `none` when nothing is returned. -/
  returnType : Option String
  params : List Param
  /-- `none` for a method that is only declared. -/
  body : Option Block
  span : Span

/-- What kind of type a declaration introduces. -/
inductive TypeShape where
  /-- Holds methods; its objects are no terms. -/
  | plain
  /-- A closed sum of variants. -/
  | interface
  /-- A variant with one constant value. -/
  | singleton
  /-- A variant built from components. -/
  | record (components : List Component)

/-- A type declaration. -/
structure TypeDecl where
  id : DeclId
  name : String
  annots : List Annot
  shape : TypeShape
  /-- Names of the types it extends or implements. -/
  supertypes : List String
  methods : List Method
  span : Span

namespace TypeDecl

/-- The components of a record; no other type has any. -/
def components (t : TypeDecl) : List Component :=
  match t.shape with
  | .record components => components
  | _ => []

/-- Values of the type are terms. -/
def isVariant (t : TypeDecl) : Bool :=
  match t.shape with
  | .singleton | .record _ => true
  | _ => false

end TypeDecl

/-- What one source file declares. -/
structure CompilationUnit where
  /-- The name shown in reports, usually the path of the file. -/
  name : String
  types : List TypeDecl
  /-- Methods that belong to no type. -/
  methods : List Method

namespace CompilationUnit

/-- Every method: those of the types in order, then those that belong to no type. -/
def allMethods (u : CompilationUnit) : List Method :=
  u.types.flatMap TypeDecl.methods ++ u.methods

end CompilationUnit

end Closedness
