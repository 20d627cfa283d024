import Closedness.Json.Parser
import Closedness.Json.Printer
import Closedness.Program.Writing

/-!
# Reading units from JSON

Records may be written by name or by position (`Json.record?`). Outside statements and type
shapes a member under an unknown name is skipped unread, whatever it holds. A statement of a method
body, and the shape of a type, is decoded as a whole before its parts are looked at: it must be
decodable throughout and, counted from the start of the text, nest at most `nestingLimit` arrays
and objects; its own kind is given by name, and kinds inside it by name or by place.

The readers of bodies take the nesting they may use as their first argument. Each reader uses up
one level for the array or object it reads, so the argument is also what they recurse on.
-/

namespace Closedness

/-- How deep the arrays and objects of a unit's text may nest. -/
def nestingLimit : Nat := 127

/-! ## Spans, ids and annotations -/

def DeclId.ofJson? (j : Json) : Option DeclId :=
  j.readUInt32.map DeclId.mk

/-- Reads a span; only the two offsets are required. -/
def Span.ofJson? (j : Json) : Option Span := do
  let f ← j.record? Span.fieldNames
  return {
    start := ← f.required "start" Json.readUInt64
    stop := ← f.required "end" Json.readUInt64
    startLine := ← f.withDefault "start_line" 0 Json.readUInt64
    endLine := ← f.withDefault "end_line" 0 Json.readUInt64
    startColumn := ← f.withDefault "start_column" 0 Json.readUInt64
    endColumn := ← f.withDefault "end_column" 0 Json.readUInt64 }

def Annot.ofJson? (j : Json) : Option Annot := do
  let f ← j.record? ["name", "span"]
  return {
    name := ← f.required "name" Json.readString
    span := ← f.required "span" Span.ofJson? }

/-! ## Declarations in headers -/

def Component.ofJson? (j : Json) : Option Component := do
  let f ← j.record? ["id", "name", "ty", "annotations", "span"]
  return {
    id := ← f.required "id" DeclId.ofJson?
    name := ← f.required "name" Json.readString
    type := ← f.required "ty" Json.readString
    annots := ← f.list "annotations" Annot.ofJson?
    span := ← f.required "span" Span.ofJson? }

def Param.ofJson? (j : Json) : Option Param := do
  let f ← j.record? ["id", "name", "ty", "annotations", "is_varargs", "span"]
  return {
    id := ← f.required "id" DeclId.ofJson?
    name := ← f.required "name" Json.readString
    type := ← f.required "ty" Json.readString
    annots := ← f.list "annotations" Annot.ofJson?
    isVarargs := ← f.flag "is_varargs"
    span := ← f.required "span" Span.ofJson? }

def LocalDecl.ofJson? (j : Json) : Option LocalDecl := do
  let f ← j.record? ["id", "name", "ty", "annotations", "span"]
  return {
    id := ← f.required "id" DeclId.ofJson?
    name := ← f.required "name" Json.readString
    type := ← f.optional "ty" Json.readString
    annots := ← f.list "annotations" Annot.ofJson?
    span := ← f.required "span" Span.ofJson? }

def PatternVar.ofJson? (j : Json) : Option PatternVar := do
  let f ← j.record? ["id", "name", "annotations", "span"]
  return {
    id := ← f.required "id" DeclId.ofJson?
    name := ← f.required "name" Json.readString
    annots := ← f.list "annotations" Annot.ofJson?
    span := ← f.required "span" Span.ofJson? }

/-! ## Bodies -/

def Pattern.kinds : List String :=
  ["type_test", "binding", "record", "unnamed"]

def Pattern.ofJson? : Nat → Json → Option Pattern
  | 0, _ => none
  | room + 1, j => do
    let (kind, body) ← j.variant? Pattern.kinds
    match kind with
    | "type_test" =>
      let f ← body.record? ["variant", "binding", "span"]
      return .typeTest
        (← f.required "variant" DeclId.ofJson?)
        (← f.optional "binding" PatternVar.ofJson?)
        (← f.required "span" Span.ofJson?)
    | "binding" =>
      let f ← body.record? ["binding", "span"]
      return .variable
        (← f.required "binding" PatternVar.ofJson?)
        (← f.required "span" Span.ofJson?)
    | "record" =>
      let f ← body.record? ["variant", "components", "span"]
      return .record
        (← f.required "variant" DeclId.ofJson?)
        (← f.required "components" (Json.readList (Pattern.ofJson? room)))
        (← f.required "span" Span.ofJson?)
    | "unnamed" =>
      let f ← body.record? ["span"]
      return .wildcard (← f.required "span" Span.ofJson?)
    | _ => none

def Expr.kinds : List String :=
  ["null", "literal", "var", "this", "field", "call", "new", "singleton", "paren", "instance_of",
    "conditional", "switch", "assign", "opaque"]

def Stmt.kinds : List String :=
  ["local", "expr", "if", "while", "switch", "return", "block"]

def Label.kinds : List String :=
  ["pattern", "constant", "default"]

def ArmBody.kinds : List String :=
  ["expr", "block"]

/-- Reads a block whose statements are read by `stmt`. -/
def Block.ofJsonWith? (stmt : Json → Option Stmt) (j : Json) : Option Block := do
  let f ← j.record? ["stmts", "span"]
  return .mk
    (← f.required "stmts" (Json.readList stmt))
    (← f.required "span" Span.ofJson?)

mutual

def Expr.ofJson? : Nat → Json → Option Expr
  | 0, _ => none
  | room + 1, j => do
    let (kind, body) ← j.variant? Expr.kinds
    match kind with
    | "null" =>
      let f ← body.record? ["span"]
      return .null (← f.required "span" Span.ofJson?)
    | "literal" =>
      let f ← body.record? ["ty", "span"]
      return .literal
        (← f.required "ty" Json.readString)
        (← f.required "span" Span.ofJson?)
    | "var" =>
      let f ← body.record? ["decl", "span"]
      return .var
        (← f.required "decl" DeclId.ofJson?)
        (← f.required "span" Span.ofJson?)
    | "this" =>
      let f ← body.record? ["span"]
      return .self (← f.required "span" Span.ofJson?)
    | "field" =>
      let f ← body.record? ["receiver", "component", "span"]
      return .field
        (← f.optional "receiver" (Expr.ofJson? room))
        (← f.required "component" DeclId.ofJson?)
        (← f.required "span" Span.ofJson?)
    | "call" =>
      let f ← body.record? ["receiver", "method", "args", "span"]
      return .call
        (← f.optional "receiver" (Expr.ofJson? room))
        (← f.required "method" DeclId.ofJson?)
        (← f.list "args" (Expr.ofJson? room))
        (← f.required "span" Span.ofJson?)
    | "new" =>
      let f ← body.record? ["variant", "args", "span"]
      return .construct
        (← f.required "variant" DeclId.ofJson?)
        (← f.list "args" (Expr.ofJson? room))
        (← f.required "span" Span.ofJson?)
    | "singleton" =>
      let f ← body.record? ["variant", "span"]
      return .singleton
        (← f.required "variant" DeclId.ofJson?)
        (← f.required "span" Span.ofJson?)
    | "paren" =>
      let f ← body.record? ["inner", "span"]
      return .paren
        (← f.required "inner" (Expr.ofJson? room))
        (← f.required "span" Span.ofJson?)
    | "instance_of" =>
      let f ← body.record? ["operand", "pattern", "span"]
      return .instanceOf
        (← f.required "operand" (Expr.ofJson? room))
        (← f.required "pattern" (Pattern.ofJson? room))
        (← f.required "span" Span.ofJson?)
    | "conditional" =>
      let f ← body.record? ["condition", "then_expr", "else_expr", "span"]
      return .conditional
        (← f.required "condition" (Expr.ofJson? room))
        (← f.required "then_expr" (Expr.ofJson? room))
        (← f.required "else_expr" (Expr.ofJson? room))
        (← f.required "span" Span.ofJson?)
    | "switch" =>
      let f ← body.record? ["scrutinee", "arms", "span"]
      return .switch
        (← f.required "scrutinee" (Expr.ofJson? room))
        (← f.required "arms" (Json.readList (Arm.ofJson? room)))
        (← f.required "span" Span.ofJson?)
    | "assign" =>
      let f ← body.record? ["target", "value", "span"]
      return .assign
        (← f.required "target" DeclId.ofJson?)
        (← f.required "value" (Expr.ofJson? room))
        (← f.required "span" Span.ofJson?)
    | "opaque" =>
      let f ← body.record? ["ty", "children", "span"]
      return .other
        (← f.optional "ty" Json.readString)
        (← f.list "children" (Expr.ofJson? room))
        (← f.required "span" Span.ofJson?)
    | _ => none

def Stmt.ofJson? : Nat → Json → Option Stmt
  | 0, _ => none
  | room + 1, j => do
    let (kind, body) ← j.variant? Stmt.kinds
    match kind with
    | "local" =>
      let f ← body.record? ["decl", "init", "span"]
      return .declare
        (← f.required "decl" LocalDecl.ofJson?)
        (← f.optional "init" (Expr.ofJson? room))
        (← f.required "span" Span.ofJson?)
    | "expr" =>
      let f ← body.record? ["expr", "span"]
      return .expr
        (← f.required "expr" (Expr.ofJson? room))
        (← f.required "span" Span.ofJson?)
    | "if" =>
      let f ← body.record? ["condition", "then_branch", "else_branch", "span"]
      return .ifElse
        (← f.required "condition" (Expr.ofJson? room))
        (← f.required "then_branch" (Block.ofJson? room))
        (← f.optional "else_branch" (Block.ofJson? room))
        (← f.required "span" Span.ofJson?)
    | "while" =>
      let f ← body.record? ["condition", "body", "span"]
      return .loop
        (← f.required "condition" (Expr.ofJson? room))
        (← f.required "body" (Block.ofJson? room))
        (← f.required "span" Span.ofJson?)
    | "switch" =>
      let f ← body.record? ["scrutinee", "arms", "span"]
      return .switch
        (← f.required "scrutinee" (Expr.ofJson? room))
        (← f.required "arms" (Json.readList (Arm.ofJson? room)))
        (← f.required "span" Span.ofJson?)
    | "return" =>
      let f ← body.record? ["value", "span"]
      return .ret
        (← f.optional "value" (Expr.ofJson? room))
        (← f.required "span" Span.ofJson?)
    | "block" =>
      let f ← body.record? ["block", "span"]
      return .block
        (← f.required "block" (Block.ofJson? room))
        (← f.required "span" Span.ofJson?)
    | _ => none

/-- Reads a block inside a statement. -/
def Block.ofJson? : Nat → Json → Option Block
  | 0, _ => none
  | room + 1, j => Block.ofJsonWith? (Stmt.ofJson? room) j

def Arm.ofJson? : Nat → Json → Option Arm
  | 0, _ => none
  | room + 1, j => do
    let f ← j.record? ["label", "body", "span"]
    return .mk
      (← f.required "label" (Label.ofJson? room))
      (← f.required "body" (ArmBody.ofJson? room))
      (← f.required "span" Span.ofJson?)

def Label.ofJson? : Nat → Json → Option Label
  | 0, _ => none
  | room + 1, j => do
    let (kind, body) ← j.variant? Label.kinds
    match kind with
    | "pattern" =>
      let f ← body.record? ["pattern"]
      return .pattern (← f.required "pattern" (Pattern.ofJson? room))
    | "constant" =>
      let f ← body.record? ["expr"]
      return .constant (← f.required "expr" (Expr.ofJson? room))
    | "default" =>
      let _ ← body.record? []
      return .default
    | _ => none

/-- Reads the body of an arm. -/
def ArmBody.ofJson? : Nat → Json → Option ArmBody
  | 0, _ => none
  | room + 1, j => do
    let (kind, body) ← j.variant? ArmBody.kinds
    match kind with
    | "expr" =>
      let f ← body.record? ["expr"]
      return .expr (← f.required "expr" (Expr.ofJson? room))
    | "block" =>
      let f ← body.record? ["block"]
      return .block (← f.required "block" (Block.ofJson? room))
    | _ => none

end

/-! ## Types and units -/

/-- Reads a value that is decoded as a whole within `room` levels, its kind given by name. -/
def Json.readWhole {α : Type} (read : Nat → Json → Option α) (room : Nat) (j : Json) : Option α :=
  if j.fits room && j.tagIsName then read room j else none

/-- Reads a method that may nest `room` levels. -/
def Method.ofJson? (room : Nat) (j : Json) : Option Method := do
  let f ← j.record?
    ["id", "name", "is_static", "annotations", "return_ty", "params", "body", "span"]
  return {
    id := ← f.required "id" DeclId.ofJson?
    name := ← f.required "name" Json.readString
    isStatic := ← f.flag "is_static"
    annots := ← f.list "annotations" Annot.ofJson?
    returnType := ← f.optional "return_ty" Json.readString
    params := ← f.list "params" Param.ofJson?
    body := ← f.optional "body" (Block.ofJsonWith? (Json.readWhole Stmt.ofJson? (room - 3)))
    span := ← f.required "span" Span.ofJson? }

def TypeShape.kinds : List String :=
  ["class", "interface", "singleton", "record"]

/-- Reads the shape of a type. -/
def TypeShape.ofJson? (j : Json) : Option TypeShape := do
  let (kind, body) ← j.variant? TypeShape.kinds
  match kind with
  | "class" =>
    let _ ← body.record? []
    return .plain
  | "interface" =>
    let _ ← body.record? []
    return .interface
  | "singleton" =>
    let _ ← body.record? []
    return .singleton
  | "record" =>
    let f ← body.record? ["components"]
    return .record (← f.required "components" (Json.readList Component.ofJson?))
  | _ => none

/-- Reads a type declaration that may nest `room` levels. -/
def TypeDecl.ofJson? (room : Nat) (j : Json) : Option TypeDecl := do
  let f ← j.record? ["id", "name", "annotations", "shape", "supertypes", "methods", "span"]
  return {
    id := ← f.required "id" DeclId.ofJson?
    name := ← f.required "name" Json.readString
    annots := ← f.list "annotations" Annot.ofJson?
    shape := ← f.required "shape" (Json.readWhole (fun _ => TypeShape.ofJson?) (room - 1))
    supertypes := ← f.list "supertypes" Json.readString
    methods := ← f.list "methods" (Method.ofJson? (room - 2))
    span := ← f.required "span" Span.ofJson? }

namespace CompilationUnit

def ofJson? (j : Json) : Option CompilationUnit := do
  let f ← j.record? ["name", "types", "methods"]
  return {
    name := ← f.required "name" Json.readString
    types := ← f.list "types" (TypeDecl.ofJson? (nestingLimit - 2))
    methods := ← f.list "methods" (Method.ofJson? (nestingLimit - 2)) }

/-- Reads a unit from JSON text. -/
def parse? (text : String) : Option CompilationUnit :=
  (Json.parse? text).bind ofJson?

/-- A unit as JSON text. -/
def toText (u : CompilationUnit) : String :=
  u.toJson.pretty

end CompilationUnit

end Closedness
