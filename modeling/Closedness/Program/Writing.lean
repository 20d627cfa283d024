import Closedness.Json.Record
import Closedness.Program.Basic

/-!
# Units as JSON values

Every field is written, in declaration order: an absent value as `null`, an empty list as an empty
array, and spans in full. Values of several kinds are written by name, with the kind first.
-/

namespace Closedness

/-! ## Spans, ids and annotations -/

namespace Span

/-- The names of the fields of a span, in order. -/
def fieldNames : List String :=
  ["start", "end", "start_line", "end_line", "start_column", "end_column"]

def toJson (s : Span) : Json :=
  .object [
    ("start", .natural s.start.toNat),
    ("end", .natural s.stop.toNat),
    ("start_line", .natural s.startLine.toNat),
    ("end_line", .natural s.endLine.toNat),
    ("start_column", .natural s.startColumn.toNat),
    ("end_column", .natural s.endColumn.toNat)]

end Span

/-- An id is written as its number. -/
def DeclId.toJson (id : DeclId) : Json :=
  .natural id.val.toNat

def Annot.toJson (a : Annot) : Json :=
  .object [("name", .string a.name), ("span", a.span.toJson)]

/-! ## Declarations in headers -/

def Component.toJson (c : Component) : Json :=
  .object [
    ("id", c.id.toJson),
    ("name", .string c.name),
    ("ty", .string c.type),
    ("annotations", .ofList Annot.toJson c.annots),
    ("span", c.span.toJson)]

def Param.toJson (p : Param) : Json :=
  .object [
    ("id", p.id.toJson),
    ("name", .string p.name),
    ("ty", .string p.type),
    ("annotations", .ofList Annot.toJson p.annots),
    ("is_varargs", .bool p.isVarargs),
    ("span", p.span.toJson)]

def LocalDecl.toJson (d : LocalDecl) : Json :=
  .object [
    ("id", d.id.toJson),
    ("name", .string d.name),
    ("ty", .ofOption .string d.type),
    ("annotations", .ofList Annot.toJson d.annots),
    ("span", d.span.toJson)]

def PatternVar.toJson (v : PatternVar) : Json :=
  .object [
    ("id", v.id.toJson),
    ("name", .string v.name),
    ("annotations", .ofList Annot.toJson v.annots),
    ("span", v.span.toJson)]

/-! ## Bodies -/

/-- A value of the kind `kind`, with its fields by name. -/
def Json.tagged (kind : String) (fields : List (String × Json)) : Json :=
  .object (("kind", .string kind) :: fields)

mutual

def Pattern.toJson : Pattern → Json
  | .typeTest variant var span => .tagged "type_test" [
      ("variant", variant.toJson),
      ("binding", .ofOption PatternVar.toJson var),
      ("span", span.toJson)]
  | .variable var span => .tagged "binding" [("binding", var.toJson), ("span", span.toJson)]
  | .record variant components span => .tagged "record" [
      ("variant", variant.toJson),
      ("components", .array (Pattern.listToJson components)),
      ("span", span.toJson)]
  | .wildcard span => .tagged "unnamed" [("span", span.toJson)]

def Pattern.listToJson : List Pattern → List Json
  | [] => []
  | p :: rest => p.toJson :: Pattern.listToJson rest

end

mutual

def Expr.toJson : Expr → Json
  | .null span => .tagged "null" [("span", span.toJson)]
  | .literal type span => .tagged "literal" [("ty", .string type), ("span", span.toJson)]
  | .var decl span => .tagged "var" [("decl", decl.toJson), ("span", span.toJson)]
  | .self span => .tagged "this" [("span", span.toJson)]
  | .field receiver component span => .tagged "field" [
      ("receiver", Expr.optionToJson receiver),
      ("component", component.toJson),
      ("span", span.toJson)]
  | .call receiver method args span => .tagged "call" [
      ("receiver", Expr.optionToJson receiver),
      ("method", method.toJson),
      ("args", .array (Expr.listToJson args)),
      ("span", span.toJson)]
  | .construct variant args span => .tagged "new" [
      ("variant", variant.toJson),
      ("args", .array (Expr.listToJson args)),
      ("span", span.toJson)]
  | .singleton variant span => .tagged "singleton" [
      ("variant", variant.toJson),
      ("span", span.toJson)]
  | .paren inner span => .tagged "paren" [("inner", inner.toJson), ("span", span.toJson)]
  | .instanceOf operand pattern span => .tagged "instance_of" [
      ("operand", operand.toJson),
      ("pattern", pattern.toJson),
      ("span", span.toJson)]
  | .conditional condition thenExpr elseExpr span => .tagged "conditional" [
      ("condition", condition.toJson),
      ("then_expr", thenExpr.toJson),
      ("else_expr", elseExpr.toJson),
      ("span", span.toJson)]
  | .switch scrutinee arms span => .tagged "switch" [
      ("scrutinee", scrutinee.toJson),
      ("arms", .array (Arm.listToJson arms)),
      ("span", span.toJson)]
  | .assign target value span => .tagged "assign" [
      ("target", target.toJson),
      ("value", value.toJson),
      ("span", span.toJson)]
  | .other type children span => .tagged "opaque" [
      ("ty", .ofOption .string type),
      ("children", .array (Expr.listToJson children)),
      ("span", span.toJson)]

def Expr.listToJson : List Expr → List Json
  | [] => []
  | e :: rest => e.toJson :: Expr.listToJson rest

def Expr.optionToJson : Option Expr → Json
  | none => .null
  | some e => e.toJson

def Stmt.toJson : Stmt → Json
  | .declare decl init span => .tagged "local" [
      ("decl", decl.toJson),
      ("init", Expr.optionToJson init),
      ("span", span.toJson)]
  | .expr expr span => .tagged "expr" [("expr", expr.toJson), ("span", span.toJson)]
  | .ifElse condition thenBranch elseBranch span => .tagged "if" [
      ("condition", condition.toJson),
      ("then_branch", thenBranch.toJson),
      ("else_branch", Block.optionToJson elseBranch),
      ("span", span.toJson)]
  | .loop condition body span => .tagged "while" [
      ("condition", condition.toJson),
      ("body", body.toJson),
      ("span", span.toJson)]
  | .switch scrutinee arms span => .tagged "switch" [
      ("scrutinee", scrutinee.toJson),
      ("arms", .array (Arm.listToJson arms)),
      ("span", span.toJson)]
  | .ret value span => .tagged "return" [
      ("value", Expr.optionToJson value),
      ("span", span.toJson)]
  | .block block span => .tagged "block" [("block", block.toJson), ("span", span.toJson)]

def Stmt.listToJson : List Stmt → List Json
  | [] => []
  | s :: rest => s.toJson :: Stmt.listToJson rest

def Block.toJson : Block → Json
  | .mk stmts span => .object [
      ("stmts", .array (Stmt.listToJson stmts)),
      ("span", span.toJson)]

def Block.optionToJson : Option Block → Json
  | none => .null
  | some block => block.toJson

def Arm.toJson : Arm → Json
  | .mk label body span => .object [
      ("label", label.toJson),
      ("body", body.toJson),
      ("span", span.toJson)]

def Arm.listToJson : List Arm → List Json
  | [] => []
  | arm :: rest => arm.toJson :: Arm.listToJson rest

def Label.toJson : Label → Json
  | .pattern pattern => .tagged "pattern" [("pattern", pattern.toJson)]
  | .constant expr => .tagged "constant" [("expr", expr.toJson)]
  | .default => .tagged "default" []

/-- The body of an arm as a JSON value. -/
def ArmBody.toJson : ArmBody → Json
  | .expr expr => .tagged "expr" [("expr", expr.toJson)]
  | .block block => .tagged "block" [("block", block.toJson)]

end

/-! ## Types and units -/

def Method.toJson (m : Method) : Json :=
  .object [
    ("id", m.id.toJson),
    ("name", .string m.name),
    ("is_static", .bool m.isStatic),
    ("annotations", .ofList Annot.toJson m.annots),
    ("return_ty", .ofOption .string m.returnType),
    ("params", .ofList Param.toJson m.params),
    ("body", Block.optionToJson m.body),
    ("span", m.span.toJson)]

/-- The shape of a type as a JSON value. -/
def TypeShape.toJson : TypeShape → Json
  | .plain => .tagged "class" []
  | .interface => .tagged "interface" []
  | .singleton => .tagged "singleton" []
  | .record components => .tagged "record" [("components", .ofList Component.toJson components)]

def TypeDecl.toJson (t : TypeDecl) : Json :=
  .object [
    ("id", t.id.toJson),
    ("name", .string t.name),
    ("annotations", .ofList Annot.toJson t.annots),
    ("shape", t.shape.toJson),
    ("supertypes", .ofList .string t.supertypes),
    ("methods", .ofList Method.toJson t.methods),
    ("span", t.span.toJson)]

def CompilationUnit.toJson (u : CompilationUnit) : Json :=
  .object [
    ("name", .string u.name),
    ("types", .ofList TypeDecl.toJson u.types),
    ("methods", .ofList Method.toJson u.methods)]

end Closedness
