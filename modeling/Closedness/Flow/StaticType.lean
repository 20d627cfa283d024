import Closedness.Flow.Context

/-!
# Static types

`Expr.staticType?` is the type name of an expression as far as the declarations tell. It decides
whether a local keeps its annotation: a marker on a local is a promise about values of the declared
type, and is kept only if the initialiser is of that very type, or tells nothing about its own.
-/

namespace Closedness

/-- The name of the static type of an expression, where variables are known by `env`. -/
def Expr.staticType? (ctx : Context) (env : Env) : Expr → Option String
  | .literal type _ => some type
  | .var decl _ => (env.get? decl).bind VarState.type
  | .self _ => ctx.selfType
  | .field _ component _ => ctx.model.componentType? component
  | .call _ method _ _ => (ctx.model.componentType? method).or (ctx.model.returnType? method)
  | .construct variant _ _ | .singleton variant _ => ctx.model.typeName? variant
  | .paren inner _ => inner.staticType? ctx env
  | .conditional _ thenExpr _ _ => thenExpr.staticType? ctx env
  | .instanceOf _ _ _ => some "boolean"
  | .assign _ value _ => value.staticType? ctx env
  | .other type _ _ => type
  | .null _ | .switch _ _ _ => none

/-- A marker on a local of the given declared type is kept for the initialiser. -/
def Expr.keepsMarker (ctx : Context) (env : Env) (declared : Option String) (init : Expr) : Bool :=
  init.isNullLiteral ||
    match declared, init.staticType? ctx env with
    | some declared, some actual => declared = actual
    | _, _ => true

end Closedness
