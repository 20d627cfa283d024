import Closedness.Program.Reading
import Closedness.Program.References

/-!
# Well-resolved units

A unit is well resolved when no two of its declarations share an id and every reference names a
declaration that can play its role. `CompilationUnit.defect?` finds the first thing that is wrong:
a repeated declaration before any dangling reference. `CompilationUnit.load` reads a unit from text
and insists that nothing is. Why a text describes no unit is for its parser to say: the reason is a
parameter of reading, and the error carries it.
-/

namespace Closedness

/-- Why a text is no usable unit. -/
inductive UnitError where
  /-- The text is no JSON, or describes no unit; the reason is in the words of the parser. -/
  | malformed (reason : String)
  /-- Two declarations share an id. -/
  | duplicate (id : DeclId) (first second : Span)
  /-- A reference names no declaration that can play its role. -/
  | unknown (id : DeclId) (role : Role) (span : Span)
deriving DecidableEq

namespace UnitError

/-- The error, worded for a reader. -/
def message : UnitError → String
  | .malformed reason => "malformed compilation unit: " ++ reason
  | .duplicate id first second =>
    "declaration " ++ id.display ++ " defined twice (at " ++ first.position ++ " and "
      ++ second.position ++ ")"
  | .unknown id role span =>
    "reference at " ++ span.position ++ " names unknown " ++ role.name ++ " " ++ id.display

/-- The place in the unit that is wrong, if there is one. -/
def span? : UnitError → Option Span
  | .malformed _ => none
  | .duplicate _ _ second => some second
  | .unknown _ _ span => some span

end UnitError

/-- The first declaration that repeats the id of an earlier one, after that earlier one; `seen`
holds the declarations before. -/
def Declaration.firstRepeat (seen : List Declaration) :
    List Declaration → Option (Declaration × Declaration)
  | [] => none
  | d :: rest =>
    match seen.find? fun e => e.id = d.id with
    | some earlier => some (earlier, d)
    | none => firstRepeat (d :: seen) rest

/-- Some declaration has the id of the reference, and the first such one can play its role. -/
def Reference.resolves (declared : List Declaration) (r : Reference) : Bool :=
  match declared.find? fun d => d.id = r.id with
  | some d => r.role.admits d.kind
  | none => false

namespace CompilationUnit

/-- The first thing that is wrong with a unit. -/
def defect? (u : CompilationUnit) : Option UnitError :=
  let declared := u.declarations
  match Declaration.firstRepeat [] declared with
  | some (first, second) => some (.duplicate second.id first.span second.span)
  | none =>
    (u.references.find? fun r => !r.resolves declared).map fun r => .unknown r.id r.role r.span

/-- The unit itself, if nothing is wrong with it. -/
def validate (u : CompilationUnit) : Except UnitError CompilationUnit :=
  match u.defect? with
  | none => .ok u
  | some e => .error e

/-- Reads a unit from JSON text, whether well resolved or not; `reason` says of a text that
describes no unit why it does not. -/
def read (reason : String → String) (text : String) : Except UnitError CompilationUnit :=
  match parse? text with
  | some u => .ok u
  | none => .error (.malformed (reason text))

/-- Reads a well-resolved unit from JSON text. -/
def load (reason : String → String) (text : String) : Except UnitError CompilationUnit :=
  (read reason text).bind validate

end CompilationUnit

end Closedness
