import Closedness.Flow.Matching
import Closedness.Flow.StaticType

/-!
# Walking a method body

`eval` and `exec` walk the expressions and statements of a body in evaluation order. Branches are
joined by taking the weaker fact about each variable, and the body of a loop is walked once. The
variables of a pattern in a condition are in scope in the branches; blocks and arms have scopes of
their own.

One `Checker` walks the methods of a unit in turn. It turns to a method by setting everything it
knows anew (`Checker.enter`), except that methods without body are passed over.
-/

namespace Closedness

/-- What evaluating an expression tells: its level and, when it is constructed on the spot, from
what. -/
structure Evaluated where
  level : ValueLevel
  built : Option Construction := none

/-- The level of a variable at this point; a variable out of scope inherits. -/
def readVariable (id : DeclId) : Walk ValueLevel := do
  return ((← Walk.env).level? id).getD .inherit

/-- Gives a value to a variable: an annotated one judges it and keeps its level, any other takes
the level of the value. -/
def assignVariable (ctx : Context) (target : DeclId) (level : ValueLevel) (span : Span) :
    Walk Unit := do
  match (← Walk.env).get? target with
  | none => pure ()
  | some state =>
    match state.pinned with
    | some pinned => do
      checkValue ctx pinned level .declaration span
      checkRedundant ctx pinned level state.pinnedAt
    | none => Walk.modify fun env => env.assign target (ctx.plainLevel level state.type)

/-- Declares a local without initialiser. -/
def declareLocal (ctx : Context) (decl : LocalDecl) (resolution : Resolution) : Walk Unit :=
  let binding := ctx.model.declaredBinding resolution.binding decl.type
  Walk.modify fun env => env.declare decl.id (.ofBinding binding resolution.span decl.type)

/-- Declares a local whose initialiser has been evaluated to `value`. -/
def initLocal (ctx : Context) (decl : LocalDecl) (resolution : Resolution) (init : Expr)
    (value : ValueLevel) : Walk Unit := do
  let env ← Walk.env
  let type := decl.type.or (init.staticType? ctx env)
  let plain : VarState := .plain (ctx.plainLevel value type) type
  let state ← match resolution.binding with
    | some .noInherit => pure (.plain .unchecked type)
    | some (.level .inherit) | none => pure plain
    | some (.level l) => do
      checkValue ctx l value .declaration init.span
      checkRedundant ctx l value resolution.span
      if init.keepsMarker ctx env decl.type then
        pure (.pin l resolution.span type)
      else do
        Walk.emit [.noted (.markerDropped decl.name l)]
        pure plain
  Walk.emit [.noted (.initialised decl.name state.level)]
  Walk.modify fun env => env.declare decl.id state

mutual

/-- Evaluates an expression. -/
def eval (ctx : Context) : Expr → Walk Evaluated
  | .null _ => return { level := .null }
  | .literal _ _ => return { level := .inherit }
  | .var decl _ => return { level := ← readVariable decl }
  | .self _ => return { level := ctx.selfLevel }
  | .field receiver component _ => do
    let receiver ← evalOption ctx receiver
    return { level := ctx.model.accessLevel component (receiver.getD ctx.selfLevel) }
  | .call receiver method args _ => do
    let receiver ← evalOption ctx receiver
    let _ ← evalArgs ctx (ctx.model.argRequirement? method) 0 args
    return { level := ctx.model.callResult method receiver ctx.self }
  | .construct variant args _ => do
    let args ← evalArgs ctx (ctx.model.componentRequirement? variant) 0 args
    return { level := ctx.model.constructionLevel variant, built := some { variant, args } }
  | .singleton variant _ => return { level := ctx.model.constructionLevel variant }
  | .paren inner _ => eval ctx inner
  | .instanceOf operand pattern _ => do
    let operand ← eval ctx operand
    bindPattern ctx operand.level operand.built pattern
    return { level := .inherit }
  | .conditional condition thenExpr elseExpr _ => do
    let _ ← eval ctx condition
    let (first, second) ← Walk.fork (eval ctx thenExpr) (eval ctx elseExpr)
    return { level := first.level.meet second.level }
  | .switch scrutinee arms _ => do
    let scrutinee ← eval ctx scrutinee
    let level ← Walk.alternatives (arms.any Arm.isDefault) (runArms ctx scrutinee arms)
    return { level := level.getD .inherit }
  | .assign target value _ => do
    let level := (← eval ctx value).level
    assignVariable ctx target level value.span
    return { level }
  | .other _ children _ => do
    let _ ← evalArgs ctx (fun _ => none) 0 children
    return { level := .inherit }

def evalOption (ctx : Context) : Option Expr → Walk (Option ValueLevel)
  | none => return none
  | some e => return some (← eval ctx e).level

/-- Evaluates expressions in order, from position `index` on, and judges each one against what its
position requires. -/
def evalArgs (ctx : Context) (required : Nat → Option Level) (index : Nat) :
    List Expr → Walk (List ValueLevel)
  | [] => return []
  | e :: rest => do
    let level := (← eval ctx e).level
    checkAgainst ctx (required index) level .strict e.span
    return level :: (← evalArgs ctx required (index + 1) rest)

/-- The walks of the arms of a switch over a value, each in a scope of its own. -/
def runArms (ctx : Context) (scrutinee : Evaluated) : List Arm → List (Walk (Option ValueLevel))
  | [] => []
  | .mk label body _ :: rest =>
    Walk.inScope (do bindLabel ctx scrutinee label; runBody ctx body) :: runArms ctx scrutinee rest

/-- Matches a value with a label. -/
def bindLabel (ctx : Context) (scrutinee : Evaluated) : Label → Walk Unit
  | .pattern pattern => bindPattern ctx scrutinee.level scrutinee.built pattern
  | .constant expr => do
    let _ ← eval ctx expr
  | .default => pure ()

/-- Runs the body of an arm; only an expression has a level. -/
def runBody (ctx : Context) : ArmBody → Walk (Option ValueLevel)
  | .expr expr => return some (← eval ctx expr).level
  | .block block => do
    execBlock ctx block
    return none

/-- Runs a statement. -/
def exec (ctx : Context) : Stmt → Walk Unit
  | .declare decl none _ => do
    declareLocal ctx decl (← resolveVariable ctx decl.id decl.annots)
  | .declare decl (some init) _ => do
    let resolution ← resolveVariable ctx decl.id decl.annots
    let value := (← eval ctx init).level
    initLocal ctx decl resolution init value
  | .expr expr _ => do
    let _ ← eval ctx expr
  | .ifElse condition thenBranch elseBranch _ => Walk.inScope do
    let _ ← eval ctx condition
    let _ ← Walk.fork (execBlock ctx thenBranch) (execOption ctx elseBranch)
  | .loop condition body _ => Walk.inScope do
    let _ ← eval ctx condition
    let _ ← Walk.fork (execBlock ctx body) (pure ())
  | .switch scrutinee arms _ => do
    let scrutinee ← eval ctx scrutinee
    let _ ← Walk.alternatives (arms.any Arm.isDefault) (runArms ctx scrutinee arms)
  | .ret none _ => pure ()
  | .ret (some value) _ => do
    let level := (← eval ctx value).level
    checkAgainst ctx ctx.returns level .strict value.span
  | .block block _ => execBlock ctx block

def execAll (ctx : Context) : List Stmt → Walk Unit
  | [] => pure ()
  | s :: rest => do
    exec ctx s
    execAll ctx rest

/-- Runs the statements of a block in a scope of their own. -/
def execBlock (ctx : Context) : Block → Walk Unit
  | .mk stmts _ => Walk.inScope (execAll ctx stmts)

def execOption (ctx : Context) : Option Block → Walk Unit
  | none => pure ()
  | some block => execBlock ctx block

end

/-! ## Methods -/

/-- The context in which the body of a method is walked. -/
def Context.ofMethod (names : Names) (model : Model) (m : Method) : Context :=
  let entry := model.method? m.id
  let owner := (entry.bind MethodEntry.owner).bind model.type?
  let object := if m.isStatic then none else owner
  { model
    names
    self := object.map fun t => .level t.level
    selfType := object.map fun t => t.decl.name
    returns := entry.bind fun e => e.returns.explicit? }

/-- The environment in which the body of a method starts: its parameters. -/
def Env.ofParams (model : Model) (params : List Param) : Env :=
  params.foldl
    (fun env p => env.declare p.id (.ofBinding (model.paramBinding p.id) none (some p.type))) {}

/-- What a checker knows: which findings are asked for, the variables at this point of the method it
is in, and what stays the same in that method. -/
structure Checker where
  options : Options := {}
  env : Env := {}
  self : Option ValueLevel := none
  selfType : Option String := none
  returns : Option Level := none

namespace Checker

/-- Turns to the body of a method. -/
def enter (names : Names) (model : Model) (m : Method) (c : Checker) : Checker :=
  let ctx := Context.ofMethod names model m
  { c with
    env := Env.ofParams model m.params
    self := ctx.self
    selfType := ctx.selfType
    returns := ctx.returns }

/-- The context in which the checker walks a body. -/
def context (names : Names) (model : Model) (c : Checker) : Context :=
  { model, names, self := c.self, selfType := c.selfType, returns := c.returns
    options := c.options }

/-- Walks a method; one without body is passed over, and the checker stays as it is. -/
def checkMethod (names : Names) (model : Model) (c : Checker) (m : Method) :
    Checker × List Event :=
  match m.body with
  | none => (c, [])
  | some body =>
    let c := c.enter names model m
    let outcome := execAll (c.context names model) body.stmts c.env
    ({ c with env := outcome.env }, .noted (.method m.name c.self c.returns) :: outcome.log)

/-- What walking methods one after the other logs. -/
def checkMethods (names : Names) (model : Model) (c : Checker) : List Method → List Event
  | [] => []
  | m :: rest =>
    let (next, log) := c.checkMethod names model m
    log ++ next.checkMethods names model rest

end Checker

/-- What walking a method with a new checker logs, if all findings are asked for. -/
def checkMethod (names : Names) (model : Model) (m : Method) : List Event :=
  (Checker.checkMethod names model {} m).2

end Closedness
