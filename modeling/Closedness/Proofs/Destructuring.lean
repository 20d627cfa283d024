import Closedness.Proofs.Conflicts
import Closedness.Proofs.Nodes
import Closedness.Proofs.Points
import Closedness.Proofs.Shape

/-!
# Destructuring and reading members

A record pattern takes a value apart, and the patterns inside it name what reading the components
would give. Each pattern inside another is reached by a path: the record variants that it passes
through, and a position in each (`Pattern.positions`). `Model.levelAt` follows such a path and reads
the component at each step, after the test for the variant has narrowed the value
(`Model.readLevel`). If the value is constructed on the spot, the first step may see one of its
arguments instead (`Model.argument?`).

Matching a pattern comes down to one step for each pattern inside it, in order
(`bindPattern_eq_steps`): it tests for a variant, and binds a variable to the value at the end of
its path. Hence what each variable holds, and which tests narrow (`destructuring_reads_members`).
-/

namespace Closedness

/-! ## Paths through a pattern -/

/-- From record to component: variants, and a position in each. -/
abbrev Pattern.Path := List (DeclId × Nat)

mutual

/-- A pattern and all patterns inside it, in order, with the paths that lead to them. -/
def Pattern.positions : Pattern → List (Pattern.Path × Pattern)
  | .typeTest variant var span => [([], .typeTest variant var span)]
  | .variable var span => [([], .variable var span)]
  | .wildcard span => [([], .wildcard span)]
  | .record variant components span =>
    ([], .record variant components span) :: Pattern.componentPositions variant 0 components

/-- The same for the components of a record, from position `index` on. -/
def Pattern.componentPositions (variant : DeclId) (index : Nat) :
    List Pattern → List (Pattern.Path × Pattern)
  | [] => []
  | p :: rest =>
    p.positions.map (fun q => ((variant, index) :: q.1, q.2))
      ++ Pattern.componentPositions variant (index + 1) rest

end

namespace Model

/-- The component of a record at a position. -/
def componentAt? (model : Model) (variant : DeclId) (index : Nat) : Option DeclId :=
  (model.componentBindings variant)[index]?.map Prod.fst

/-- The level of a component that is read out of a value which is found to be of a variant; past the
last component the value hands on its own level. -/
def readLevel (model : Model) (value : ValueLevel) (variant : DeclId) (index : Nat) : ValueLevel :=
  let narrowed := value.narrow (model.variantLevel variant)
  match model.componentAt? variant index with
  | some component => model.accessLevel component narrowed
  | none => narrowed.inheritedFrom

/-- The argument that a value of the variant has been constructed from, at a position where no
component asks for something else than to inherit. -/
def argument? (model : Model) (built : Option Construction) (variant : DeclId) (index : Nat) :
    Option ValueLevel :=
  if (model.componentAt? variant index).all fun c => model.componentBinding c = .level .inherit then
    (built.filter fun b => b.variant = variant).bind fun b => b.args[index]?
  else none

/-- The level at the end of a path: an argument may be seen at the first step, the others read. -/
def levelAt (model : Model) (value : ValueLevel) (built : Option Construction) :
    Pattern.Path → ValueLevel
  | [] => value
  | (variant, index) :: rest =>
    rest.foldl (fun l step => model.readLevel l step.1 step.2)
      ((model.argument? built variant index).getD (model.readLevel value variant index))

variable (model : Model)

@[simp] theorem argument?_none (variant : DeclId) (index : Nat) :
    model.argument? none variant index = none := by
  simp [argument?]

/-- The levels along a path are those of a chain of reads. -/
theorem levelAt_none (value : ValueLevel) (path : Pattern.Path) :
    model.levelAt value none path =
      path.foldl (fun l step => model.readLevel l step.1 step.2) value := by
  cases path with
  | nil => rfl
  | cons step rest => rw [levelAt, argument?_none, List.foldl_cons]; rfl

/-- Only the first step of a path may see the arguments of a construction. -/
theorem levelAt_cons (value : ValueLevel) (built : Option Construction) (variant : DeclId)
    (index : Nat) (rest : Pattern.Path) :
    model.levelAt value built ((variant, index) :: rest) =
      model.levelAt (model.levelAt value built [(variant, index)]) none rest := by
  rw [levelAt_none]
  rfl

/-- What is asked of a component does not depend on where it is asked for. -/
theorem map_snd_componentBindings (variant : DeclId) (index : Nat) :
    (model.componentBindings variant)[index]?.map Prod.snd =
      (model.componentAt? variant index).map model.componentBinding := by
  unfold componentAt? componentBindings
  cases model.type? variant with
  | none => rfl
  | some t => cases h : t.decl.components[index]? <;> simp [h]

/-- **Matching a component gives the level that reading it gives**, or that of the argument it was
constructed from. -/
theorem matchedLevel_eq (value : ValueLevel) (built : Option Construction) (variant : DeclId)
    (index : Nat) :
    model.matchedLevel variant (value.narrow (model.variantLevel variant)) built index =
      model.levelAt value built [(variant, index)] := by
  simp only [matchedLevel, map_snd_componentBindings, levelAt, List.foldl_nil, argument?,
    readLevel, accessLevel]
  generalize (built.filter fun b => b.variant = variant).bind (fun b => b.args[index]?) = arg
  cases model.componentAt? variant index with
  | none => cases arg <;> rfl
  | some c =>
    match hbinding : model.componentBinding c with
    | .noInherit | .level .bound | .level .closed => simp [hbinding, memberLevel]
    | .level .inherit => cases arg <;> simp [hbinding, memberLevel]

end Model

/-! ## What a pattern does by itself -/

namespace Pattern

/-- The variable that a pattern itself introduces. -/
def var? : Pattern → Option PatternVar
  | .typeTest _ var _ => var
  | .variable var _ => some var
  | .record _ _ _ | .wildcard _ => none

/-- The variant that a pattern itself tests for. -/
def variant? : Pattern → Option DeclId
  | .typeTest variant _ _ | .record variant _ _ => some variant
  | .variable _ _ | .wildcard _ => none

/-- The level of a value that has passed the test of a pattern. -/
def passed (model : Model) (p : Pattern) (value : ValueLevel) : ValueLevel :=
  match p.variant? with
  | some variant => value.narrow (model.variantLevel variant)
  | none => value

/-- The finding that the test of a pattern takes a value for stronger than it is. -/
def narrowing? (model : Model) (p : Pattern) (value : ValueLevel) : Option Diagnostic :=
  match p.variant?.map model.variantLevel, value.resolved? with
  | some declared, some actual =>
    if declared.isExplicit ∧ actual.strength < declared.strength then
      some (.caseArmNarrowing p.span declared actual)
    else none
  | _, _ => none

/-- What a pattern by itself declares for a value. -/
def stored? (ctx : Context) (p : Pattern) (value : ValueLevel) : Option (DeclId × VarState) :=
  p.var?.map fun var =>
    (var.id, .plain
      (PatternVar.levelFor (ctx.names.resolve var.annots).binding (p.passed ctx.model value))
      (p.variant?.bind ctx.model.typeName?))

/-- What a pattern by itself logs for a value. -/
def ownLog (ctx : Context) (p : Pattern) (value : ValueLevel) : List Event :=
  (match p.variant? with
    | some variant => narrowingLog ctx.options (ctx.model.variantLevel variant) value p.span
    | none => [])
    ++ (match p.var? with
      | some var => ctx.bindingLog var (p.passed ctx.model value)
      | none => [])

mutual

/-- The variables of a pattern are those that the patterns inside it introduce. -/
theorem declarations_eq_positions : ∀ p : Pattern,
    p.declarations =
      p.positions.filterMap fun q => q.2.var?.map PatternVar.declaration
  | .typeTest _ none _ | .typeTest _ (some _) _ | .variable _ _ | .wildcard _ => by
    rw [declarations, positions]
    rfl
  | .record variant components span => by
    rw [declarations, positions, List.filterMap_cons]
    exact listDeclarations_eq_positions variant components 0

theorem listDeclarations_eq_positions (variant : DeclId) : ∀ (ps : List Pattern) (index : Nat),
    listDeclarations ps =
      (componentPositions variant index ps).filterMap fun q =>
        q.2.var?.map PatternVar.declaration
  | [], _ => by rw [listDeclarations, componentPositions, List.filterMap_nil]
  | p :: rest, index => by
    rw [listDeclarations, componentPositions, List.filterMap_append, List.filterMap_map,
      declarations_eq_positions p, listDeclarations_eq_positions variant rest (index + 1)]
    rfl

end

end Pattern

/-! ## Matching step by step -/

namespace Env

/-- Adds variables one after the other. -/
def declareAll (env : Env) (vars : List (DeclId × VarState)) : Env :=
  vars.foldl (fun env v => env.declare v.1 v.2) env

theorem declareAll_append (env : Env) (a b : List (DeclId × VarState)) :
    env.declareAll (a ++ b) = (env.declareAll a).declareAll b :=
  List.foldl_append ..

/-- Declaring a list of variables does not change what is found for the others. -/
theorem get?_declareAll_of_not_mem {id : DeclId} {vars : List (DeclId × VarState)} (env : Env)
    (h : id ∉ vars.map Prod.fst) : (env.declareAll vars).get? id = env.get? id := by
  induction vars generalizing env with
  | nil => rfl
  | cons v rest ih =>
    rw [List.map_cons, List.mem_cons, not_or] at h
    exact (ih (env.declare v.1 v.2) h.2).trans (env.get?_declare_of_ne h.1 v.2)

/-- Of variables with different ids each is found. -/
theorem get?_declareAll {vars : List (DeclId × VarState)} (hnodup : (vars.map Prod.fst).Nodup)
    (env : Env) {v : DeclId × VarState} (hv : v ∈ vars) :
    (env.declareAll vars).get? v.1 = some v.2 := by
  induction vars generalizing env with
  | nil => cases hv
  | cons first rest ih =>
    obtain ⟨hnew, hnodup⟩ := List.nodup_cons.1 hnodup
    rcases List.mem_cons.1 hv with rfl | hv
    · exact (get?_declareAll_of_not_mem _ hnew).trans (get?_declare_self ..)
    · exact ih hnodup (env.declare first.1 first.2) hv

end Env

section Matching

variable (ctx : Context)

/-- What the patterns at the given positions declare for the values at the ends of their paths. -/
def Pattern.storedAt (value : Pattern.Path → ValueLevel) (qs : List (Pattern.Path × Pattern)) :
    List (DeclId × VarState) :=
  qs.filterMap fun q => q.2.stored? ctx (value q.1)

/-- What the patterns at the given positions log. -/
def Pattern.logAt (value : Pattern.Path → ValueLevel) (qs : List (Pattern.Path × Pattern)) :
    List Event :=
  qs.flatMap fun q => q.2.ownLog ctx (value q.1)

mutual

/-- Matching a pattern comes down to one step for each pattern inside it. -/
theorem bindPattern_eq_steps : ∀ (p : Pattern) (value : ValueLevel) (built : Option Construction)
    (env : Env),
    bindPattern ctx value built p env =
      { value := ()
        env := env.declareAll (Pattern.storedAt ctx (ctx.model.levelAt value built) p.positions)
        log := Pattern.logAt ctx (ctx.model.levelAt value built) p.positions }
  | .typeTest variant none span, value, built, env => by
    rw [bindPattern, Pattern.positions]
    simp [Pattern.logAt, Pattern.ownLog, Pattern.variant?, Pattern.var?, Pattern.storedAt,
      Pattern.stored?, Pattern.span, Model.levelAt, Env.declareAll]
  | .typeTest variant (some var) span, value, built, env => by
    rw [bindPattern, Pattern.positions]
    simp [Pattern.logAt, Pattern.ownLog, Pattern.variant?, Pattern.var?, Pattern.storedAt,
      Pattern.stored?, Pattern.span, Pattern.passed, Model.levelAt, Env.declareAll]
  | .variable var span, value, built, env => by
    rw [bindPattern, Pattern.positions]
    simp [Pattern.logAt, Pattern.ownLog, Pattern.variant?, Pattern.var?, Pattern.storedAt,
      Pattern.stored?, Pattern.passed, Model.levelAt, Env.declareAll]
  | .wildcard span, value, built, env => by
    rw [bindPattern, Pattern.positions]
    simp [Pattern.logAt, Pattern.ownLog, Pattern.variant?, Pattern.var?, Pattern.storedAt,
      Pattern.stored?, Env.declareAll]
  | .record variant components span, value, built, env => by
    rw [bindPattern, Pattern.positions, Walk.bind_apply, Walk.emit_apply,
      bindComponents_eq_steps value built variant components 0 env]
    simp [Pattern.logAt, Pattern.ownLog, Pattern.variant?, Pattern.var?, Pattern.storedAt,
      Pattern.stored?, Pattern.span, Model.levelAt]

/-- The components are bound position by position, each at the level of its path. -/
theorem bindComponents_eq_steps (value : ValueLevel) (built : Option Construction)
    (variant : DeclId) : ∀ (ps : List Pattern) (index : Nat) (env : Env),
    bindComponents ctx
        (ctx.model.matchedLevel variant (value.narrow (ctx.model.variantLevel variant)) built)
        index ps env =
      { value := ()
        env := env.declareAll (Pattern.storedAt ctx (ctx.model.levelAt value built)
          (Pattern.componentPositions variant index ps))
        log := Pattern.logAt ctx (ctx.model.levelAt value built)
          (Pattern.componentPositions variant index ps) }
  | [], index, env => by
    rw [bindComponents, Pattern.componentPositions]
    rfl
  | p :: rest, index, env => by
    rw [bindComponents, Pattern.componentPositions, Walk.bind_apply, bindPattern_eq_steps p,
      bindComponents_eq_steps value built variant rest (index + 1), Model.matchedLevel_eq]
    simp [Pattern.logAt, Pattern.storedAt, List.filterMap_map, List.flatMap_map,
      Env.declareAll_append, ← Model.levelAt_cons]

end

/-- The variables that the positions of a pattern declare are those of the pattern. -/
theorem Pattern.fst_storedAt (value : Pattern.Path → ValueLevel) (p : Pattern) :
    (Pattern.storedAt ctx value p.positions).map Prod.fst = Declaration.ids p.declarations := by
  rw [Pattern.storedAt, Declaration.ids, Pattern.declarations_eq_positions, List.map_filterMap,
    List.map_filterMap]
  refine congrArg (List.filterMap · p.positions) (funext fun q => ?_)
  simp only [Pattern.stored?, Option.map_map]
  rfl

/-- What is found under the variable of a pattern inside a pattern, if no id occurs twice. -/
theorem get?_bindPattern {p : Pattern} (hnodup : (Declaration.ids p.declarations).Nodup)
    (value : ValueLevel) (built : Option Construction) (env : Env)
    {q : Pattern.Path × Pattern} (hq : q ∈ p.positions) {v : DeclId × VarState}
    (hv : q.2.stored? ctx (ctx.model.levelAt value built q.1) = some v) :
    (bindPattern ctx value built p env).env.get? v.1 = some v.2 := by
  rw [bindPattern_eq_steps]
  refine Env.get?_declareAll ?_ env (List.mem_filterMap.2 ⟨q, hq, hv⟩)
  rw [Pattern.fst_storedAt]
  exact hnodup

end Matching

/-! ## Narrowing tests -/

namespace Event

/-- The findings of a log that a test takes a value for stronger than it is. -/
def narrowings (log : List Event) : List Diagnostic :=
  (diagnostics log).filter fun d => d.kind = .caseArmNarrowing

theorem narrowings_append (a b : List Event) :
    narrowings (a ++ b) = narrowings a ++ narrowings b := by
  simp only [narrowings, diagnostics, List.filterMap_append, List.filter_append]

theorem narrowings_flatMap {α : Type} (items : List α) (f : α → List Event) :
    narrowings (items.flatMap f) = items.flatMap fun a => narrowings (f a) := by
  simp only [narrowings, diagnostics, List.filterMap_flatMap, List.filter_flatMap]

theorem narrowings_bindingLog (ctx : Context) (var : PatternVar) (value : ValueLevel) :
    narrowings (ctx.bindingLog var value) = [] := by
  have hconflicts : ∀ cs, narrowings (ofConflicts var.id cs) = [] := by
    intro cs
    rw [narrowings, diagnostics_ofConflicts, List.filter_eq_nil_iff]
    rintro d hd
    obtain ⟨c, -, rfl⟩ := List.mem_map.1 hd
    exact Bool.false_ne_true
  have hredundancy : ∀ l span, narrowings (redundancyLog ctx.options l value span) = [] := by
    intro l span
    unfold redundancyLog Options.finding
    split
    · split
      · split <;> rfl
      · rfl
    · rfl
  rw [Context.bindingLog, narrowings_append, narrowings_append, hconflicts]
  split
  · rw [hredundancy]; rfl
  · rfl

/-- A pattern by itself finds at most that its own test narrows. -/
theorem narrowings_ownLog (ctx : Context) (p : Pattern) (value : ValueLevel) :
    narrowings (p.ownLog ctx value) =
      if ctx.options.caseArmNarrowing then (p.narrowing? ctx.model value).toList else [] := by
  have hvar : narrowings (match p.var? with
      | some var => ctx.bindingLog var (p.passed ctx.model value)
      | none => []) = [] := by
    cases p.var? with
    | none => rfl
    | some var => exact narrowings_bindingLog ..
  rw [Pattern.ownLog, narrowings_append, hvar, List.append_nil, Pattern.narrowing?]
  cases p.variant? with
  | none => simp [narrowings, diagnostics]
  | some variant =>
    simp only [Option.map_some, narrowingLog, Options.finding]
    cases value.resolved? with
    | none => simp [narrowings, diagnostics]
    | some actual =>
      by_cases hexplicit : (ctx.model.variantLevel variant).isExplicit = true <;>
        by_cases hlt : actual.strength < (ctx.model.variantLevel variant).strength <;>
        cases hoption : ctx.options.caseArmNarrowing <;>
        simp [hexplicit, hlt, hoption, narrowings, diagnostics, diagnostic?, Options.admits,
          Diagnostic.caseArmNarrowing, Diagnostic.ofKind]

/-- The narrowings along a pattern are those of the tests in it. -/
theorem narrowings_logAt (ctx : Context) (value : Pattern.Path → ValueLevel)
    (qs : List (Pattern.Path × Pattern)) :
    narrowings (Pattern.logAt ctx value qs) =
      if ctx.options.caseArmNarrowing then
        qs.filterMap fun q => q.2.narrowing? ctx.model (value q.1)
      else [] := by
  simp only [Pattern.logAt, narrowings_flatMap, narrowings_ownLog]
  split
  · rw [List.filterMap_eq_flatMap_toList]
  · exact List.flatMap_eq_nil_iff.2 fun _ _ => rfl

end Event

/-! ## The patterns of a unit -/

namespace Node

theorem mem_all_of_part {n part inner : Node} (hpart : part ∈ n.parts) (h : inner ∈ part.all) :
    inner ∈ n.all := by
  rw [all_eq]
  exact List.mem_cons_of_mem _ (List.mem_flatMap.2 ⟨part, hpart, h⟩)

/-- What a node declares is declared, in the same order, by every node around it. -/
theorem declarations_sublist {n inner : Node} (h : inner ∈ n.all) :
    inner.declarations.Sublist n.declarations := by
  rw [all_eq, List.mem_cons, List.mem_flatMap] at h
  obtain rfl | ⟨part, hpart, hinner⟩ := h
  · exact .refl _
  · have := sizeOf_lt_of_mem_parts hpart
    have hparts : part.declarations.Sublist (n.parts.flatMap declarations) :=
      List.sublist_flatten_of_mem (List.mem_map_of_mem hpart)
    rw [declarations_eq n]
    exact ((declarations_sublist hinner).trans hparts).trans (List.sublist_append_right ..)
termination_by sizeOf n

end Node

/-- **Destructuring agrees with reading members, at any depth.** In a valid unit, matching a pattern
stores for each variable without marker the level at the end of its path, once more narrowed by the
type that the pattern of the variable tests for. The tests that narrow are found one by one, in
order and nothing else, if that is asked for. -/
theorem destructuring_reads_members (config : Config) {u : CompilationUnit}
    (hu : u.validate = .ok u) {p : Pattern} (hp : .pattern p ∈ (Node.unit u).all) (m : Method)
    (value : ValueLevel) (built : Option Construction) (env : Env) :
    let ctx := config.context u m
    let outcome := bindPattern ctx value built p env
    (∀ q ∈ p.positions, ∀ var, q.2.var? = some var → config.names.marked var.annots = [] →
      outcome.env.get? var.id = some (.plain
        (q.2.passed ctx.model (ctx.model.levelAt value built q.1)).matched
        (q.2.variant?.bind ctx.model.typeName?))) ∧
      Event.narrowings outcome.log =
        if config.options.caseArmNarrowing then
          p.positions.filterMap fun q =>
            q.2.narrowing? ctx.model (ctx.model.levelAt value built q.1)
        else [] := by
  intro ctx outcome
  have hnodup : (Declaration.ids p.declarations).Nodup :=
    (CompilationUnit.nodup_of_validate hu).sublist ((Node.declarations_sublist hp).map _)
  refine ⟨fun q hq var hvar hmarker => ?_, ?_⟩
  · have hbinding : (ctx.names.resolve var.annots).binding = none := by
      rw [Names.resolve, show ctx.names.marked var.annots = [] from hmarker]
    refine get?_bindPattern ctx hnodup value built env hq (v := (var.id, _)) ?_
    rw [Pattern.stored?, hvar, Option.map_some, hbinding]
    rfl
  · unfold outcome
    rw [bindPattern_eq_steps]
    exact Event.narrowings_logAt ctx _ _

/-! ## Patterns with more components than their records have -/

namespace Nesting

/-- A pattern that is a variable without marker. -/
def named (id : UInt32) : Pattern :=
  .variable { id := ⟨id⟩, name := "v", annots := [], span := .spot 5 } (.spot 5)

/-- `Pair(Box(var x), Box(var y), var z)` -/
def pair : Pattern :=
  .record ⟨30⟩ [.record ⟨20⟩ [named 3] (.spot 5), .record ⟨20⟩ [named 4] (.spot 5), named 5]
    (.spot 5)

/-- `Box(var v, var w)` -/
def box : Pattern :=
  .record ⟨20⟩ [named 6, named 7] (.spot 6)

/-- `record Box(Leaf leaf)` and `@Closed record Pair(Box first, @Bound Box second)` -/
def types : List TypeDecl :=
  let component (id : UInt32) (type : String) (annots : List Annot) : Component :=
    { id := ⟨id⟩, name := "c", type, annots, span := .spot 0 }
  let record (id : UInt32) (name : String) (annots : List Annot) (components : List Component) :
      TypeDecl :=
    { id := ⟨id⟩, name, annots, shape := .record components, supertypes := [], methods := [],
      span := .spot 0 }
  [record 20 "Box" [] [component 21 "Leaf" []],
    record 30 "Pair" [{ name := "Closed", span := .spot 0 }]
      [component 31 "Box" [], component 32 "Box" [{ name := "Bound", span := .spot 0 }]]]

/-- `if (p instanceof Pair(Box(var x), Box(var y), var z)) {}` and
`if (new Box(c, c) instanceof Box(var v, var w)) { return w; }` -/
def stmts : List Stmt :=
  let closed : Expr := .var ⟨2⟩ (.spot 6)
  [.ifElse (.instanceOf (.var ⟨1⟩ (.spot 5)) pair (.spot 5)) (.mk [] (.spot 5)) none (.spot 5),
    .ifElse (.instanceOf (.construct ⟨20⟩ [closed, closed] (.spot 6)) box (.spot 6))
      (.mk [.ret (some (.var ⟨7⟩ (.spot 8))) (.spot 7)] (.spot 7)) none (.spot 6)]

/-- `@Closed Leaf m(@Bound Pair p, @Closed Leaf c) { … }` -/
def method : Method :=
  let param (id : UInt32) (type marker : String) : Param :=
    { id := ⟨id⟩, name := "p", type, annots := [{ name := marker, span := .spot 1 }],
      isVarargs := false, span := .spot 1 }
  { id := ⟨0⟩
    name := "m"
    isStatic := true
    annots := [{ name := "Closed", span := .spot 0 }]
    returnType := some "Leaf"
    params := [param 1 "Pair" "Bound", param 2 "Leaf" "Closed"]
    body := some (.mk stmts (.spot 4))
    span := .spot 0 }

/-- The unit that declares the types and the method. -/
def unit : CompilationUnit :=
  { name := "nesting", types, methods := [method] }

/-- The context in which the method is walked. -/
def context : Context :=
  ({} : Config).context unit method

/-- A pattern that one of the statements tests is one of the unit. -/
theorem mem_all {operand : Expr} {p : Pattern} {body : Block} {condition span : Span}
    (h : .ifElse (.instanceOf operand p condition) body none span ∈ stmts) :
    .pattern p ∈ (Node.unit unit).all := by
  have hbody : .block (.mk stmts (.spot 4)) ∈ (Node.method method).parts :=
    List.mem_append_right _ List.mem_cons_self
  have hpattern : .pattern p ∈ (Node.expr (.instanceOf operand p condition)).parts :=
    List.mem_cons_of_mem _ List.mem_cons_self
  refine Node.mem_all_of_part (List.mem_append_right _ List.mem_cons_self) ?_
  refine Node.mem_all_of_part hbody (Node.mem_all_of_part (List.mem_map_of_mem h) ?_)
  refine Node.mem_all_of_part List.mem_cons_self (Node.mem_all_of_part hpattern ?_)
  rw [Node.all_eq]
  exact List.mem_cons_self

end Nesting

/-- A bound value that is found to be a closed pair: the first component inherits from it and the
second one is bound, and so are the components read out of them; past the last component the pair
hands on its level. -/
theorem destructuring_reads_members_pair :
    let outcome := bindPattern Nesting.context (.level .bound) none Nesting.pair {}
    Nesting.unit.validate = .ok Nesting.unit ∧
      outcome.env.get? ⟨3⟩ = some (.plain (.level .closed) none) ∧
      outcome.env.get? ⟨4⟩ = some (.plain (.level .bound) none) ∧
      outcome.env.get? ⟨5⟩ = some (.plain (.level .closed) none) ∧
      Event.narrowings outcome.log = [.caseArmNarrowing (.spot 5) .closed .bound] := by
  obtain ⟨hstored, hnarrowed⟩ := destructuring_reads_members {} (u := Nesting.unit) rfl
    (Nesting.mem_all List.mem_cons_self) Nesting.method (.level .bound) none {}
  refine ⟨rfl, hstored ([(⟨30⟩, 0), (⟨20⟩, 0)], Nesting.named 3) ?_ _ rfl rfl,
    hstored ([(⟨30⟩, 1), (⟨20⟩, 0)], Nesting.named 4) ?_ _ rfl rfl,
    hstored ([(⟨30⟩, 2)], Nesting.named 5) ?_ _ rfl rfl, hnarrowed⟩ <;>
  · rw [Nesting.pair]
    simp [Pattern.positions, Pattern.componentPositions, Nesting.named]

/-- **Past the last component an argument is seen as well.** The record has one component, so
reading the second would give the level that the new value hands on, of which nothing is known. The
variable takes that of the second argument, and nothing is found where it is returned. The one
finding of the unit, that a test narrows, is left out unless it is asked for. -/
theorem destructuring_sees_surplus_argument :
    let value := Nesting.context.model.constructionLevel ⟨20⟩
    let built : Construction := { variant := ⟨20⟩, args := [.level .closed, .level .closed] }
    Nesting.unit.validate = .ok Nesting.unit ∧ .pattern Nesting.box ∈ (Node.unit Nesting.unit).all ∧
      Nesting.context.model.componentAt? ⟨20⟩ 1 = none ∧
      (Nesting.context.model.readLevel value ⟨20⟩ 1).matched = .inherit ∧
      (bindPattern Nesting.context value (some built) Nesting.box {}).env.level? ⟨7⟩ =
        some (.level .closed) ∧
      Event.diagnostics (runLog {} Nesting.unit) = [.caseArmNarrowing (.spot 5) .closed .bound] ∧
      Event.diagnostics (runLog { options := { caseArmNarrowing := false } } Nesting.unit) =
        [] := by
  refine ⟨rfl, Nesting.mem_all (List.mem_cons_of_mem _ List.mem_cons_self), ?_, ?_, ?_, ?_,
    ?_⟩ <;> decide

end Closedness
