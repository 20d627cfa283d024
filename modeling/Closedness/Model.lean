import Closedness.Event
import Closedness.Program.Declarations
import Closedness.Table

/-!
# The declarations of a unit, tabulated

A `Model` answers what the walk through the bodies asks about declarations: the level of a type,
the binding of a component, parameter or return value, and the levels of constructions, component
reads and calls. It is built once per unit from the headers alone (`Model.ofUnit`); what building
it logs is a separate list (`Model.log`).

Where an id is declared twice the later declaration counts; where a type name is, the first.
-/

namespace Closedness

/-- A type and the level it is annotated with. -/
structure TypeEntry where
  decl : TypeDecl
  level : Level

/-- A component, its place in its record, and what its annotations ask for. -/
structure ComponentEntry where
  decl : Component
  owner : DeclId
  index : Nat
  binding : Binding

/-- A method, the type it belongs to, and what its annotations ask of the returned value. -/
structure MethodEntry where
  decl : Method
  owner : Option DeclId
  returns : Binding

/-- A parameter and what it asks of its argument. -/
structure ParamEntry where
  decl : Param
  binding : Binding

/-- The declarations of a unit, by id. -/
structure Model where
  types : Table TypeEntry := {}
  /-- The types by name, in source order. -/
  typeNames : List (String × DeclId) := []
  components : Table ComponentEntry := {}
  methods : Table MethodEntry := {}
  params : Table ParamEntry := {}

/-- The parameter that takes the argument at `index`: the last one takes all further arguments if
it takes any number of them. -/
def Method.paramAt? (m : Method) (index : Nat) : Option Param :=
  match m.params[index]? with
  | some p => some p
  | none => m.params.getLast?.filter Param.isVarargs

namespace Model

/-! ## Types -/

def type? (model : Model) (id : DeclId) : Option TypeEntry :=
  model.types.get? id

def typeNamed? (model : Model) (name : String) : Option TypeEntry :=
  (model.typeNames.find? fun t => t.1 = name).bind fun t => model.type? t.2

def typeName? (model : Model) (id : DeclId) : Option String :=
  (model.type? id).map fun t => t.decl.name

/-- The level of a type by name; unknown types inherit. -/
def typeLevel (model : Model) (name : String) : Level :=
  match model.typeNamed? name with
  | some t => t.level
  | none => .inherit

/-- The level of a type by id; unknown types inherit. -/
def variantLevel (model : Model) (id : DeclId) : Level :=
  match model.type? id with
  | some t => t.level
  | none => .inherit

/-- The level of a type by name, if it says something by itself. -/
def explicitTypeLevel? (model : Model) (name : Option String) : Option Level :=
  (name.map model.typeLevel).filter Level.isExplicit

/-- What a declaration asks for: what its own annotations say, or else the level of its type. -/
def declaredBinding (model : Model) (own : Option Binding) (type : Option String) : Binding :=
  match own, type with
  | some binding, _ => binding
  | none, some name => .level (model.typeLevel name)
  | none, none => .level .inherit

/-! ## Members -/

def component? (model : Model) (id : DeclId) : Option ComponentEntry :=
  model.components.get? id

def method? (model : Model) (id : DeclId) : Option MethodEntry :=
  model.methods.get? id

def param? (model : Model) (id : DeclId) : Option ParamEntry :=
  model.params.get? id

/-- What a component asks for; unknown components inherit. -/
def componentBinding (model : Model) (id : DeclId) : Binding :=
  match model.component? id with
  | some c => c.binding
  | none => .level .inherit

/-- What a parameter asks for; unknown parameters inherit. -/
def paramBinding (model : Model) (id : DeclId) : Binding :=
  match model.param? id with
  | some p => p.binding
  | none => .level .inherit

/-- The components of a record with what they ask for, in order. -/
def componentBindings (model : Model) (variant : DeclId) : List (DeclId × Binding) :=
  match model.type? variant with
  | some t => t.decl.components.map fun c => (c.id, model.componentBinding c.id)
  | none => []

def componentType? (model : Model) (id : DeclId) : Option String :=
  (model.component? id).map fun c => c.decl.type

def returnType? (model : Model) (id : DeclId) : Option String :=
  (model.method? id).bind fun m => m.decl.returnType

/-! ## Levels of values -/

/-- The level of a member read through a receiver, or through none. -/
def memberLevel (binding : Binding) (receiver : Option ValueLevel) : ValueLevel :=
  match binding, receiver with
  | .noInherit, _ => .unchecked
  | .level .inherit, some receiver => receiver.inheritedFrom
  | .level .inherit, none => .inherit
  | .level l, _ => .level l

/-- The level of a new value of a record, and of the value of a singleton. -/
def constructionLevel (model : Model) (variant : DeclId) : ValueLevel :=
  .level (model.variantLevel variant)

/-- The level of a component read through `receiver`. -/
def accessLevel (model : Model) (component : DeclId) (receiver : ValueLevel) : ValueLevel :=
  memberLevel (model.componentBinding component) (some receiver)

/-- The level of what a method returns: a method without annotation gives values of the level of
its return type, if that says something by itself, and otherwise inherits from the receiver. -/
def callLevel (model : Model) (method : DeclId) (receiver : Option ValueLevel) : ValueLevel :=
  match model.method? method with
  | none => memberLevel (.level .inherit) receiver
  | some m =>
    match m.returns, model.explicitTypeLevel? m.decl.returnType with
    | .level .inherit, some level => .level level
    | returns, _ => memberLevel returns receiver

/-- The level of calling `callee`, inside an object of level `self` if there is one: a component is
read, an unknown callee gives nothing, and a call without receiver is made on the object itself
unless the method is static. -/
def callResult (model : Model) (callee : DeclId) (receiver self : Option ValueLevel) :
    ValueLevel :=
  match model.component? callee, model.method? callee with
  | some _, _ => model.accessLevel callee (receiver.getD (self.getD .inherit))
  | none, none => .inherit
  | none, some m =>
    model.callLevel callee (receiver.or (if m.decl.isStatic then none else self))

/-! ## Requirements -/

/-- What calling `callee` requires of the argument at `index`. -/
def argRequirement? (model : Model) (callee : DeclId) (index : Nat) : Option Level :=
  match model.component? callee, model.method? callee with
  | none, some m =>
    (m.decl.paramAt? index).bind fun p => (model.paramBinding p.id).explicit?
  | _, _ => none

/-- What constructing `variant` requires of the argument at `index`. -/
def componentRequirement? (model : Model) (variant : DeclId) (index : Nat) : Option Level :=
  (model.componentBindings variant)[index]?.bind fun c => c.2.explicit?

/-! ## Building -/

/-- The level a type is annotated with; only a level counts here. -/
def annotatedLevel (names : Names) (annots : List Annot) : Level :=
  ((names.resolve annots).binding.bind Binding.level?).getD .inherit

/-- What annotations ask for; nothing means to inherit. -/
def annotatedBinding (names : Names) (annots : List Annot) : Binding :=
  (names.resolve annots).binding.getD (.level .inherit)

/-- The types of a unit alone. -/
def ofTypes (names : Names) (types : List TypeDecl) : Model :=
  { types := .ofList (types.map fun t =>
      (t.id, { decl := t, level := annotatedLevel names t.annots }))
    typeNames := types.map fun t => (t.name, t.id) }

/-- The entries of the components of a type. -/
def componentEntries (names : Names) (t : TypeDecl) : List (DeclId × ComponentEntry) :=
  t.components.mapIdx fun index c =>
    (c.id, { decl := c, owner := t.id, index, binding := annotatedBinding names c.annots })

/-- The entry of a method. -/
def methodEntry (names : Names) (owner : Option DeclId) (m : Method) : DeclId × MethodEntry :=
  (m.id, { decl := m, owner, returns := annotatedBinding names m.annots })

/-- The entry of a parameter, given the types of the unit. -/
def paramEntry (names : Names) (types : Model) (p : Param) : DeclId × ParamEntry :=
  (p.id, {
    decl := p
    binding := types.declaredBinding (names.resolve p.annots).binding (some p.type) })

/-- The declarations of a unit, tabulated. -/
def ofUnit (names : Names) (u : CompilationUnit) : Model :=
  let types := ofTypes names u.types
  { types with
    components := .ofList (u.types.flatMap (componentEntries names))
    methods := .ofList
      (u.types.flatMap (fun t => t.methods.map (methodEntry names (some t.id)))
        ++ u.methods.map (methodEntry names none))
    params := .ofList
      (u.allMethods.flatMap fun m => m.params.map (paramEntry names types)) }

/-- The headers of a method: the method itself, then its parameters. -/
def methodHeaders (m : Method) : List Declaration :=
  m.declaration :: m.params.map Param.declaration

/-- The declarations in the headers of a unit, in the order in which they are resolved: the types,
then the components and methods of each type, then the methods that belong to no type. -/
def headers (u : CompilationUnit) : List Declaration :=
  u.types.map TypeDecl.declaration
    ++ u.types.flatMap (fun t =>
      t.components.map Component.declaration ++ t.methods.flatMap methodHeaders)
    ++ u.methods.flatMap methodHeaders

/-- What resolving a declaration's annotations logs. -/
def declarationLog (names : Names) (d : Declaration) : List Event :=
  Event.ofConflicts d.id (names.resolve d.annots).conflicts

/-- What building the model of a unit logs. -/
def log (names : Names) (u : CompilationUnit) : List Event :=
  let model := ofUnit names u
  (headers u).flatMap (declarationLog names)
    ++ [.noted (.model u.name model.types.size model.components.size model.methods.size)]

end Model

end Closedness
