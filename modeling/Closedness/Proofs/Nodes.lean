import Closedness.Program.References
import Mathlib.Data.List.Perm.Basic

/-!
# The source of a unit as one tree

A `Node` is anything in the source of a unit that can declare something or name a declaration.
`Node.parts` lists what stands directly inside a node, in the order of the source, and `Node.all`
a node with everything inside it: before its parts, and these one after the other.

What a node declares or names by itself (`Node.declaration?`, `Node.reference?`) says nothing about
its parts. Collected over the whole tree the declarations are `CompilationUnit.declarations`, in
order (`CompilationUnit.declarations_eq_collect`), and the references are
`CompilationUnit.references` up to their order (`CompilationUnit.references_perm_collect`), so
neither list misses a node or counts one twice.
-/

namespace Closedness

/-- Something in the source of a unit. -/
inductive Node where
  | unit (unit : CompilationUnit)
  | type (type : TypeDecl)
  | component (component : Component)
  | method (method : Method)
  | param (param : Param)
  | block (block : Block)
  | stmt (stmt : Stmt)
  | expr (expr : Expr)
  | arm (arm : Arm)
  | pattern (pattern : Pattern)

def Label.node? : Label → Option Node
  | .pattern p => some (.pattern p)
  | .constant e => some (.expr e)
  | .default => none

def ArmBody.node : ArmBody → Node
  | .expr e => .expr e
  | .block b => .block b

namespace Node

/-- What stands directly inside a node, in the order of the source. -/
def parts : Node → List Node
  | .unit u => u.types.map type ++ u.methods.map method
  | .type t => t.components.map component ++ t.methods.map method
  | .method m => m.params.map param ++ m.body.toList.map block
  | .component _ | .param _ => []
  | .block b => b.stmts.map stmt
  | .stmt (.declare _ init _) => init.toList.map expr
  | .stmt (.expr e _) => [expr e]
  | .stmt (.ifElse condition thenBranch elseBranch _) =>
    expr condition :: block thenBranch :: elseBranch.toList.map block
  | .stmt (.loop condition body _) => [expr condition, block body]
  | .stmt (.switch scrutinee arms _) => expr scrutinee :: arms.map arm
  | .stmt (.ret value _) => value.toList.map expr
  | .stmt (.block b _) => [block b]
  | .expr (.null _) | .expr (.literal _ _) | .expr (.var _ _) | .expr (.self _)
  | .expr (.singleton _ _) => []
  | .expr (.field receiver _ _) => receiver.toList.map expr
  | .expr (.call receiver _ args _) => receiver.toList.map expr ++ args.map expr
  | .expr (.construct _ args _) => args.map expr
  | .expr (.paren inner _) => [expr inner]
  | .expr (.instanceOf operand p _) => [expr operand, pattern p]
  | .expr (.conditional condition thenExpr elseExpr _) =>
    [expr condition, expr thenExpr, expr elseExpr]
  | .expr (.switch scrutinee arms _) => expr scrutinee :: arms.map arm
  | .expr (.assign _ value _) => [expr value]
  | .expr (.other _ children _) => children.map expr
  | .arm (.mk label body _) => label.node?.toList ++ [body.node]
  | .pattern (.record _ components _) => components.map pattern
  | .pattern (.typeTest _ _ _) | .pattern (.variable _ _) | .pattern (.wildcard _) => []

theorem sizeOf_lt_of_mem_parts {n part : Node} (h : part ∈ n.parts) : sizeOf part < sizeOf n := by
  cases n with
  | unit u =>
    obtain ⟨name, types, methods⟩ := u
    simp [parts] at h ⊢
    grind [→ List.sizeOf_lt_of_mem]
  | type t =>
    obtain ⟨id, name, annots, shape, supertypes, methods, span⟩ := t
    cases shape <;> simp [parts, TypeDecl.components] at h ⊢ <;> grind [→ List.sizeOf_lt_of_mem]
  | component c => cases h
  | method m =>
    obtain ⟨id, name, isStatic, annots, returnType, params, body, span⟩ := m
    cases body <;> simp [parts] at h ⊢ <;> grind [→ List.sizeOf_lt_of_mem]
  | param p => cases h
  | block b =>
    obtain ⟨stmts, span⟩ := b
    simp [parts, Block.stmts] at h ⊢
    grind [→ List.sizeOf_lt_of_mem]
  | stmt s => cases s <;> simp [parts] at h ⊢ <;> grind [→ List.sizeOf_lt_of_mem]
  | expr e => cases e <;> simp [parts] at h ⊢ <;> grind [→ List.sizeOf_lt_of_mem]
  | arm a =>
    obtain ⟨label, body, span⟩ := a
    cases label <;> cases body <;> simp [parts, Label.node?, ArmBody.node] at h ⊢ <;> grind
  | pattern p =>
    cases p with
    | record variant components span =>
      simp [parts] at h ⊢
      grind [→ List.sizeOf_lt_of_mem]
    | _ => cases h

/-- A node and everything inside it, in the order of the source. -/
def all (n : Node) : List Node :=
  n :: n.parts.attach.flatMap fun part => part.1.all
termination_by sizeOf n
decreasing_by exact sizeOf_lt_of_mem_parts part.2

/-- What is in a node: itself, and what is in its parts. -/
theorem all_eq (n : Node) : n.all = n :: n.parts.flatMap all := by
  rw [all]
  simp

/-- What `f` reads off a node and everything inside it, in the order of the source. -/
def collect {α : Type} (f : Node → Option α) (n : Node) : List α :=
  n.all.filterMap f

theorem collect_eq {α : Type} (f : Node → Option α) (n : Node) :
    n.collect f = (f n).toList ++ n.parts.flatMap (collect f) := by
  rw [collect, all_eq, List.filterMap_cons, List.filterMap_flatMap]
  cases f n <;> rfl

/-- Something is collected just if it is asked for at some node inside. -/
theorem mem_collect {α : Type} {f : Node → Option α} {n : Node} {a : α} :
    a ∈ n.collect f ↔ ∃ part ∈ n.all, f part = some a :=
  List.mem_filterMap

/-- What a node itself declares. -/
def declaration? : Node → Option Declaration
  | .type t => some t.declaration
  | .component c => some c.declaration
  | .method m => some m.declaration
  | .param p => some p.declaration
  | .stmt (.declare decl _ _) => some decl.declaration
  | .pattern (.typeTest _ (some var) _) | .pattern (.variable var _) => some var.declaration
  | _ => none

/-- What a node itself names, and the role that the named declaration has to play. -/
def reference? : Node → Option Reference
  | .expr (.var id span) | .expr (.assign id _ span) => some { id, role := .variable, span }
  | .expr (.field _ id span) => some { id, role := .component, span }
  | .expr (.call _ id _ span) => some { id, role := .method, span }
  | .expr (.construct id _ span) | .pattern (.record id _ span) =>
    some { id, role := .record, span }
  | .expr (.singleton id span) => some { id, role := .singleton, span }
  | .pattern (.typeTest id _ span) => some { id, role := .type, span }
  | _ => none

/-! ## Functions that follow the tree -/

/-- What follows the tree is what is collected over it. -/
theorem eq_collect {α : Type} {f : Node → Option α} {g : Node → List α}
    (h : ∀ n, g n = (f n).toList ++ n.parts.flatMap g) (n : Node) : g n = n.collect f := by
  rw [h, collect_eq]
  congr 1
  exact List.flatMap_congr fun part hpart =>
    have := sizeOf_lt_of_mem_parts hpart
    eq_collect h part
termination_by sizeOf n

/-- What follows the tree in some other order is what is collected over it, up to the order. -/
theorem perm_collect {α : Type} {f : Node → Option α} {g : Node → List α}
    (h : ∀ n, (g n).Perm ((f n).toList ++ n.parts.flatMap g)) (n : Node) :
    (g n).Perm (n.collect f) := by
  refine (h n).trans ?_
  rw [collect_eq]
  refine List.Perm.append_left _ (List.Perm.flatMap_left _ fun part hpart => ?_)
  have := sizeOf_lt_of_mem_parts hpart
  exact perm_collect h part
termination_by sizeOf n

end Node

theorem eq_flatMap_of_cons {α β : Type} {g : List α → List β} {f : α → List β}
    (hnil : g [] = []) (hcons : ∀ a rest, g (a :: rest) = f a ++ g rest) (items : List α) :
    g items = items.flatMap f := by
  induction items with
  | nil => rw [hnil, List.flatMap_nil]
  | cons a rest ih => rw [hcons, List.flatMap_cons, ih]

/-! ## Declarations -/

theorem Pattern.listDeclarations_eq (ps : List Pattern) :
    listDeclarations ps = ps.flatMap declarations :=
  eq_flatMap_of_cons (by rw [listDeclarations]) (fun _ _ => by rw [listDeclarations]) ps

theorem Expr.listDeclarations_eq (es : List Expr) :
    listDeclarations es = es.flatMap declarations :=
  eq_flatMap_of_cons (by rw [listDeclarations]) (fun _ _ => by rw [listDeclarations]) es

theorem Expr.optionDeclarations_eq (e : Option Expr) :
    optionDeclarations e = e.toList.flatMap declarations := by
  cases e <;> simp [optionDeclarations]

theorem Stmt.listDeclarations_eq (ss : List Stmt) :
    listDeclarations ss = ss.flatMap declarations :=
  eq_flatMap_of_cons (by rw [listDeclarations]) (fun _ _ => by rw [listDeclarations]) ss

theorem Block.optionDeclarations_eq (b : Option Block) :
    optionDeclarations b = b.toList.flatMap declarations := by
  cases b <;> simp [optionDeclarations]

def Arm.declarations : Arm → List Declaration
  | .mk label body _ => label.declarations ++ body.declarations

theorem Arm.listDeclarations_eq (arms : List Arm) :
    listDeclarations arms = arms.flatMap declarations :=
  eq_flatMap_of_cons (by rw [listDeclarations])
    (fun arm _ => by cases arm; rw [listDeclarations, declarations]) arms

namespace Node

def declarations : Node → List Declaration
  | .unit u => u.declarations
  | .type t => t.declarations
  | .component c => [c.declaration]
  | .method m => m.declarations
  | .param p => [p.declaration]
  | .block b => b.declarations
  | .stmt s => s.declarations
  | .expr e => e.declarations
  | .arm a => a.declarations
  | .pattern p => p.declarations

/-- What a node declares: its own declaration, and those of its parts, in order. -/
theorem declarations_eq (n : Node) :
    n.declarations = n.declaration?.toList ++ n.parts.flatMap declarations := by
  cases n with
  | unit u =>
    simp [declarations, declaration?, parts, CompilationUnit.declarations, List.flatMap_map]
  | type t =>
    have hcomponents : t.components.map Component.declaration =
        t.components.flatMap fun c => [c.declaration] := List.map_eq_flatMap
    simp [declarations, declaration?, parts, TypeDecl.declarations, List.flatMap_map, hcomponents]
  | component c => simp [declarations, declaration?, parts]
  | method m =>
    have hparams : m.params.map Param.declaration = m.params.flatMap fun p => [p.declaration] :=
      List.map_eq_flatMap
    simp [declarations, declaration?, parts, Method.declarations, List.flatMap_map, hparams,
      Block.optionDeclarations_eq]
  | param p => simp [declarations, declaration?, parts]
  | block b =>
    obtain ⟨stmts, span⟩ := b
    simp [declarations, declaration?, parts, Block.declarations, Block.stmts, List.flatMap_map,
      Stmt.listDeclarations_eq]
  | stmt s =>
    cases s <;>
      simp [declarations, declaration?, parts, Stmt.declarations, List.flatMap_map,
        Expr.optionDeclarations_eq, Block.optionDeclarations_eq, Arm.listDeclarations_eq]
  | expr e =>
    cases e <;>
      simp [declarations, declaration?, parts, Expr.declarations, List.flatMap_map,
        Expr.optionDeclarations_eq, Expr.listDeclarations_eq, Arm.listDeclarations_eq]
  | arm a =>
    obtain ⟨label, body, span⟩ := a
    cases label <;> cases body <;>
      simp [declarations, declaration?, parts, Arm.declarations, Label.declarations,
        ArmBody.declarations, Label.node?, ArmBody.node]
  | pattern p =>
    rcases p with ⟨_, _ | _, _⟩ | _ | _ | _ <;>
      simp [declarations, declaration?, parts, Pattern.declarations, List.flatMap_map,
        Pattern.listDeclarations_eq]

end Node

/-- **The declarations of a unit are what its nodes declare, in the order of the source.** -/
theorem CompilationUnit.declarations_eq_collect (u : CompilationUnit) :
    u.declarations = (Node.unit u).collect Node.declaration? :=
  Node.eq_collect Node.declarations_eq (.unit u)

/-! ### Declarations in bodies -/

/-- The node stands in the body of a method. -/
def Node.InBody : Node → Prop
  | .unit _ | .type _ | .component _ | .method _ | .param _ => False
  | .block _ | .stmt _ | .expr _ | .arm _ | .pattern _ => True

namespace Node.InBody

theorem parts {n : Node} (h : n.InBody) : ∀ part ∈ n.parts, part.InBody := by
  cases n with
  | unit | type | component | method | param => exact h.elim
  | block b => simp [Node.parts, InBody]
  | stmt s => cases s <;> simp [Node.parts, InBody, or_imp, forall_and]
  | expr e => cases e <;> simp [Node.parts, InBody, or_imp, forall_and]
  | arm a =>
    obtain ⟨label, body, span⟩ := a
    cases label <;> cases body <;> simp [Node.parts, Label.node?, ArmBody.node, InBody]
  | pattern p => cases p <;> simp [Node.parts, InBody]

/-- Whatever is inside of what is in a body is in the body. -/
theorem all {n : Node} (h : n.InBody) {inner : Node} (hinner : inner ∈ n.all) : inner.InBody := by
  rw [all_eq, List.mem_cons, List.mem_flatMap] at hinner
  obtain rfl | ⟨part, hpart, hinner⟩ := hinner
  · exact h
  · have := sizeOf_lt_of_mem_parts hpart
    exact all (h.parts part hpart) hinner
termination_by sizeOf n

/-- Nothing but variables is declared in a body. -/
theorem kind_eq {n : Node} (h : n.InBody) {d : Declaration} (hd : d ∈ n.declarations) :
    d.kind = .variable := by
  rw [eq_collect declarations_eq, mem_collect] at hd
  obtain ⟨inner, hinner, hd⟩ := hd
  have hbody : inner.InBody := h.all hinner
  cases inner with
  | unit | type | component | method | param => exact hbody.elim
  | block | expr | arm => cases hd
  | stmt s =>
    cases s with
    | declare decl init span => exact Option.some.inj hd ▸ rfl
    | _ => cases hd
  | pattern p =>
    match p with
    | .typeTest _ (some var) _ | .variable var _ => exact Option.some.inj hd ▸ rfl
    | .typeTest _ none _ | .record _ _ _ | .wildcard _ => cases hd

end Node.InBody

/-! ## References -/

theorem Pattern.listReferences_eq (ps : List Pattern) :
    listReferences ps = ps.flatMap references :=
  eq_flatMap_of_cons (by rw [listReferences]) (fun _ _ => by rw [listReferences]) ps

theorem Expr.listReferences_eq (es : List Expr) : listReferences es = es.flatMap references :=
  eq_flatMap_of_cons (by rw [listReferences]) (fun _ _ => by rw [listReferences]) es

theorem Expr.optionReferences_eq (e : Option Expr) :
    optionReferences e = e.toList.flatMap references := by
  cases e <;> simp [optionReferences]

theorem Stmt.listReferences_eq (ss : List Stmt) : listReferences ss = ss.flatMap references :=
  eq_flatMap_of_cons (by rw [listReferences]) (fun _ _ => by rw [listReferences]) ss

theorem Block.optionReferences_eq (b : Option Block) :
    optionReferences b = b.toList.flatMap references := by
  cases b <;> simp [optionReferences]

def Arm.references : Arm → List Reference
  | .mk label body _ => label.references ++ body.references

theorem Arm.listReferences_eq (arms : List Arm) :
    listReferences arms = arms.flatMap references :=
  eq_flatMap_of_cons (by rw [listReferences])
    (fun arm _ => by cases arm; rw [listReferences, references]) arms

namespace Node

def references : Node → List Reference
  | .unit u => u.references
  | .type t => t.methods.flatMap Method.references
  | .component _ | .param _ => []
  | .method m => m.references
  | .block b => b.references
  | .stmt s => s.references
  | .expr e => e.references
  | .arm a => a.references
  | .pattern p => p.references

/-- What a node names: its own reference, and those of its parts, in some order. -/
theorem references_perm (n : Node) :
    n.references.Perm (n.reference?.toList ++ n.parts.flatMap references) := by
  cases n with
  | unit u =>
    refine .of_eq ?_
    simp [references, reference?, parts, CompilationUnit.references, CompilationUnit.allMethods,
      List.flatMap_map, List.flatMap_assoc]
  | type t =>
    refine .of_eq ?_
    simp [references, reference?, parts, List.flatMap_map]
  | component c => exact .refl _
  | method m =>
    refine .of_eq ?_
    simp [references, reference?, parts, Method.references, List.flatMap_map,
      Block.optionReferences_eq]
  | param p => exact .refl _
  | block b =>
    obtain ⟨stmts, span⟩ := b
    refine .of_eq ?_
    simp [references, reference?, parts, Block.references, Block.stmts, List.flatMap_map,
      Stmt.listReferences_eq]
  | stmt s =>
    refine .of_eq ?_
    cases s <;>
      simp [references, reference?, parts, Stmt.references, List.flatMap_map,
        Expr.optionReferences_eq, Block.optionReferences_eq, Arm.listReferences_eq]
  | expr e =>
    cases e with
    | instanceOf operand p span =>
      simpa [references, reference?, parts, Expr.references] using List.perm_append_comm
    | switch scrutinee arms span =>
      simpa [references, reference?, parts, Expr.references, List.flatMap_map,
        Arm.listReferences_eq] using List.perm_append_comm
    | _ =>
      refine .of_eq ?_
      simp [references, reference?, parts, Expr.references, List.flatMap_map,
        Expr.optionReferences_eq, Expr.listReferences_eq]
  | arm a =>
    obtain ⟨label, body, span⟩ := a
    refine .of_eq ?_
    cases label <;> cases body <;>
      simp [references, reference?, parts, Arm.references, Label.references,
        ArmBody.references, Label.node?, ArmBody.node]
  | pattern p =>
    refine .of_eq ?_
    cases p <;>
      simp [references, reference?, parts, Pattern.references, List.flatMap_map,
        Pattern.listReferences_eq]

end Node

/-- **The references of a unit are what its nodes name**, in the order in which they are looked
up. -/
theorem CompilationUnit.references_perm_collect (u : CompilationUnit) :
    u.references.Perm ((Node.unit u).collect Node.reference?) :=
  Node.perm_collect Node.references_perm (.unit u)

end Closedness
