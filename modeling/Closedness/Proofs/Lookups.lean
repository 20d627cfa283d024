import Closedness.Proofs.Headers
import Closedness.Proofs.Points
import Closedness.Proofs.Resolution
import Closedness.Proofs.Tables

/-!
# Lookups in the tables of a valid unit succeed

Walking a body asks the tables about what the body names, and where they have no entry there is a
default answer. In a valid unit everything named is a declaration of a fitting kind, so it has an
entry in the table that is asked (`Reference.lookup_succeeds`), and so has what an entry leads to
(`Model.follows_succeeds`). Hence tables that have more entries, whatever these say, make no
difference to the walk (`checkMethod_of_extends`): no default is ever used.
-/

namespace Closedness

/-- The tables have an entry for what is looked up. -/
def Lookup.Succeeds (model : Model) : Lookup → Prop
  | .type id => (model.type? id).isSome
  | .component id => (model.component? id).isSome
  | .callee id => (model.component? id).isSome ∨ (model.method? id).isSome
  | .method id => (model.method? id).isSome
  | .param id => (model.param? id).isSome

namespace Model

/-- What is looked up to turn to a method: its entry, the type that declares it, its parameters. -/
def entryLookups (model : Model) (m : Method) : List Lookup :=
  .method m.id :: (model.follows (.method m.id) ++ m.params.map fun p => .param p.id)

/-- What is looked up about the things that are named: the things themselves, the components of
types and the parameters of methods. -/
def lookups (model : Model) (rs : List Reference) : List Lookup :=
  let named := rs.filterMap Reference.lookup?
  named ++ named.flatMap model.follows

/-- The tables give the same answer to a lookup. -/
def SameAt (a b : Model) : Lookup → Prop
  | .type id => a.type? id = b.type? id
  | .component id => a.component? id = b.component? id
  | .callee id => a.component? id = b.component? id ∧ a.method? id = b.method? id
  | .method id => a.method? id = b.method? id
  | .param id => a.param? id = b.param? id

/-- The tables of `bigger` answer everything that those of `model` answer, and in the same way; what
they answer besides is anything. -/
structure Extends (bigger model : Model) : Prop where
  typeNames : bigger.typeNames = model.typeNames
  same : ∀ l : Lookup, l.Succeeds model → bigger.SameAt model l

/-- Tables that answer a lookup in the same way answer it alike. -/
theorem SameAt.alikeAt {a b : Model} : ∀ {l : Lookup}, a.SameAt b l → b.AlikeAt a l
  | .type _, h => congrArg _ h.symm
  | .component _, h => h.symm
  | .callee _, h => ⟨h.1.symm, congrArg _ h.2.symm⟩
  | .method _, h => congrArg _ h.symm
  | .param _, h => h.symm

end Model

/-! ## Declarations by kind -/

namespace CompilationUnit

variable {u : CompilationUnit}

/-- What a unit declares is a variable, or a type, a component or a method of the unit. -/
theorem declarations_cases {d : Declaration} (hd : d ∈ u.declarations) :
    d.kind = .variable ∨ (∃ t ∈ u.types, d = t.declaration) ∨
      (∃ t ∈ u.types, ∃ c ∈ t.components, d = c.declaration) ∨
      ∃ m ∈ u.allMethods, d = m.declaration := by
  -- besides itself a method declares variables only: its parameters and those of its body
  have hmethod : ∀ m ∈ u.allMethods, d ∈ m.declarations →
      d.kind = .variable ∨ ∃ m ∈ u.allMethods, d = m.declaration := by
    intro m hm hd
    rw [Method.declarations, List.mem_cons, List.mem_append, List.mem_map] at hd
    rcases hd with rfl | ⟨p, -, rfl⟩ | hd
    · exact Or.inr ⟨m, hm, rfl⟩
    · exact Or.inl rfl
    · cases hbody : m.body with
      | none =>
        rw [hbody] at hd
        cases hd
      | some body =>
        rw [hbody] at hd
        have hblock : (Node.block body).InBody := trivial
        exact Or.inl (hblock.kind_eq hd)
  rcases List.mem_append.1 hd with hd | hd
  · obtain ⟨t, ht, hd⟩ := List.mem_flatMap.1 hd
    rw [TypeDecl.declarations, List.mem_cons, List.mem_append, List.mem_map] at hd
    rcases hd with rfl | ⟨c, hc, rfl⟩ | hd
    · exact Or.inr (Or.inl ⟨t, ht, rfl⟩)
    · exact Or.inr (Or.inr (Or.inl ⟨t, ht, c, hc, rfl⟩))
    · obtain ⟨m, hm, hd⟩ := List.mem_flatMap.1 hd
      rcases hmethod m (mem_allMethods.2 (Or.inl ⟨t, ht, hm⟩)) hd with h | h
      · exact Or.inl h
      · exact Or.inr (Or.inr (Or.inr h))
  · obtain ⟨m, hm, hd⟩ := List.mem_flatMap.1 hd
    rcases hmethod m (mem_allMethods.2 (Or.inr hm)) hd with h | h
    · exact Or.inl h
    · exact Or.inr (Or.inr (Or.inr h))

end CompilationUnit

/-! ## Lookups that succeed -/

section Valid

variable {names : Names} {u : CompilationUnit} (hu : u.validate = .ok u)
include hu

namespace Model

variable {d : Declaration} (hd : d ∈ u.declarations)
include hd

/-- A declared type is found. -/
theorem type?_of_kind (hkind : d.kind.isType = true) : ((ofUnit names u).type? d.id).isSome := by
  rcases CompilationUnit.declarations_cases hd with hvar | ⟨t, ht, rfl⟩ | ⟨_, _, c, _, rfl⟩ |
    ⟨m, _, rfl⟩
  · rw [hvar] at hkind
    cases hkind
  · exact Option.isSome_iff_exists.2 ⟨_, type?_of_mem hu ht⟩
  · cases hkind
  · cases hkind

theorem component?_of_kind (hkind : d.kind = .component) :
    ((ofUnit names u).component? d.id).isSome := by
  rcases CompilationUnit.declarations_cases hd with hvar | ⟨t, _, rfl⟩ | ⟨t, ht, c, hc, rfl⟩ |
    ⟨m, _, rfl⟩
  · rw [hvar] at hkind
    cases hkind
  · cases hshape : t.shape <;> simp [TypeDecl.declaration, TypeShape.declKind, hshape] at hkind
  · exact component?_isSome hu ht hc
  · cases hkind

theorem method?_of_kind (hkind : d.kind = .method) : ((ofUnit names u).method? d.id).isSome := by
  rcases CompilationUnit.declarations_cases hd with hvar | ⟨t, _, rfl⟩ | ⟨_, _, c, _, rfl⟩ |
    ⟨m, hm, rfl⟩
  · rw [hvar] at hkind
    cases hkind
  · cases hshape : t.shape <;> simp [TypeDecl.declaration, TypeShape.declKind, hshape] at hkind
  · cases hkind
  · exact method?_isSome hu hm

end Model

/-- What is looked up about something named in a valid unit is found. -/
theorem Reference.lookup_succeeds {r : Reference} (hr : r ∈ u.references) {l : Lookup}
    (hl : r.lookup? = some l) : l.Succeeds (Model.ofUnit names u) := by
  have hresolves := CompilationUnit.resolved_of_validate hu r (CompilationUnit.mem_named.2 hr)
  rw [CompilationUnit.declared_eq] at hresolves
  obtain ⟨d, hd, hid, hkind⟩ := hresolves
  have htype : d.kind.isType = true → ((Model.ofUnit names u).type? r.id).isSome := fun h =>
    hid ▸ Model.type?_of_kind hu hd h
  have hcomponent : d.kind = .component → ((Model.ofUnit names u).component? r.id).isSome :=
    fun h => hid ▸ Model.component?_of_kind hu hd h
  have hmethod : d.kind = .method → ((Model.ofUnit names u).method? r.id).isSome := fun h =>
    hid ▸ Model.method?_of_kind hu hd h
  -- one case for each role that leads to a lookup
  unfold lookup? at hl
  split at hl <;> rename_i hrole <;> cases hl <;> rw [hrole] at hkind
  · exact hcomponent (List.mem_singleton.1 hkind)
  · rcases List.mem_pair.1 hkind with hkind | hkind
    · exact Or.inr (hmethod hkind)
    · exact Or.inl (hcomponent hkind)
  · exact htype (by rw [List.mem_singleton.1 hkind]; rfl)
  · exact htype (by rw [List.mem_singleton.1 hkind]; rfl)
  · exact htype (Role.admits_iff.2 hkind)

/-- What the answer to a lookup leads to is found, too. -/
theorem Model.follows_succeeds {l next : Lookup} (h : next ∈ (ofUnit names u).follows l) :
    next.Succeeds (ofUnit names u) := by
  cases l with
  | type id =>
    obtain ⟨t, ht, h⟩ := List.mem_flatMap.1 h
    obtain ⟨c, hc, rfl⟩ := List.mem_map.1 h
    exact component?_isSome hu (of_type? (Option.mem_toList.1 ht)).1 hc
  | callee id =>
    obtain ⟨m, hm, h⟩ := List.mem_flatMap.1 h
    obtain ⟨p, hp, rfl⟩ := List.mem_map.1 h
    exact param?_isSome hu (of_method? (Option.mem_toList.1 hm)).1 hp
  | method id =>
    obtain ⟨owner, howner, rfl⟩ := List.mem_map.1 h
    obtain ⟨m, hm, howner⟩ := Option.bind_eq_some_iff.1 (Option.mem_toList.1 howner)
    obtain ⟨t, ht, rfl⟩ := of_owner hm howner
    exact Option.isSome_iff_exists.2 ⟨_, type?_of_mem hu ht⟩
  | component id => cases h
  | param id => cases h

/-- What is looked up about the things that a unit names is found. -/
theorem Model.lookups_succeed {rs : List Reference} (hrs : rs ⊆ u.references) {l : Lookup}
    (hl : l ∈ (ofUnit names u).lookups rs) : l.Succeeds (ofUnit names u) := by
  rcases List.mem_append.1 hl with hl | hl
  · obtain ⟨r, hr, hl⟩ := List.mem_filterMap.1 hl
    exact Reference.lookup_succeeds hu (hrs hr) hl
  · obtain ⟨named, -, hl⟩ := List.mem_flatMap.1 hl
    exact follows_succeeds hu hl

/-- What is looked up to turn to a method is found. -/
theorem Model.entryLookups_succeed {m : Method} (hm : m ∈ u.allMethods) {l : Lookup}
    (hl : l ∈ (ofUnit names u).entryLookups m) : l.Succeeds (ofUnit names u) := by
  rw [entryLookups, List.mem_cons, List.mem_append, List.mem_map] at hl
  rcases hl with rfl | hl | ⟨p, hp, rfl⟩
  · exact method?_isSome hu hm
  · exact follows_succeeds hu hl
  · exact param?_isSome hu hm hp

/-- Larger tables with the same names of types take names for the same levels. -/
theorem Model.typeLevel_of_extends {bigger : Model} (h : bigger.Extends (ofUnit names u)) :
    (ofUnit names u).typeLevel = bigger.typeLevel := by
  funext name
  rw [typeLevel, typeLevel, typeNamed?, typeNamed?, h.typeNames]
  cases hfind : (ofUnit names u).typeNames.find? fun t => t.1 = name with
  | none => rfl
  | some pair =>
    obtain ⟨t, ht, rfl⟩ := List.mem_map.1 (List.mem_of_find?_eq_some hfind)
    have hsame : bigger.type? t.id = (ofUnit names u).type? t.id :=
      h.same (.type t.id) (Option.isSome_iff_exists.2 ⟨_, type?_of_mem hu ht⟩)
    rw [Option.bind_some, Option.bind_some, hsame]

/-- **No default is ever used**: further entries in the tables of a valid unit, whatever they say,
change nothing of what walking its methods logs. -/
theorem checkMethod_of_extends {bigger : Model} (h : bigger.Extends (.ofUnit names u)) {m : Method}
    (hm : m ∈ u.allMethods) :
    checkMethod names bigger m = checkMethod names (.ofUnit names u) m := by
  have hentry : ∀ l ∈ (Model.ofUnit names u).entryLookups m, l.Succeeds (.ofUnit names u) :=
    fun l hl => Model.entryLookups_succeed hu hm hl
  have hctx : (Context.ofMethod names (.ofUnit names u) m).AgreesOn
      (Lookup.Succeeds (.ofUnit names u)) (.ofMethod names bigger m) :=
    Context.ofMethod_agreesOn names (Model.typeLevel_of_extends hu h)
      (fun l hl => (h.same l hl).alikeAt) (fun l _ next hnext => Model.follows_succeeds hu hnext)
      (hentry _ List.mem_cons_self)
  symm
  refine checkMethod_of_agreesOn hctx (fun p hp => Model.param?_isSome hu hm hp) ?_
  intro r hr l hl
  exact Reference.lookup_succeeds hu (List.mem_flatMap.2 ⟨m, hm, hr⟩) hl

end Valid

/-! ## Lookups at the points of a body -/

def Part.references : Part → List Reference
  | .expr e => e.references
  | .args _ _ es => Expr.listReferences es
  | .pattern _ p => p.references
  | .components _ _ ps => Pattern.listReferences ps
  | .arm _ (.mk l b _) => l.references ++ b.references
  | .label _ l => l.references
  | .body b => b.references
  | .stmt s => s.references
  | .branches thenBranch elseBranch => thenBranch.references ++ Block.optionReferences elseBranch
  | .block b => b.references
  | .stmts ss => Stmt.listReferences ss

theorem Part.arm_references (scrutinee : Evaluated) {arms : List Arm} {arm : Arm} (h : arm ∈ arms) :
    (Part.arm scrutinee arm).references ⊆ Arm.listReferences arms := by
  induction arms with
  | nil => cases h
  | cons first rest ih =>
    obtain ⟨label, body, span⟩ := first
    rw [Arm.listReferences]
    rcases List.mem_cons.1 h with rfl | h
    · exact List.subset_append_left ..
    · exact List.subset_append_of_subset_right _ (ih h)

/-- A part names nothing that the part it is entered from does not name. -/
theorem Enters.references {ctx : Context} {p q : Part} {env env' : Env}
    (h : Enters ctx p env q env') : q.references ⊆ p.references := by
  cases h with
  | paren | children | labelPattern | labelConstant | bodyExpr | bodyBlock | init | stmtExpr
  | returned | stmtBlock | blockStmts => exact List.Subset.refl _
  | fieldReceiver | constructArgs | components | assignValue => exact List.subset_cons_self ..
  | callReceiver => exact List.subset_cons_of_subset _ (List.subset_append_left ..)
  | callArgs => exact List.subset_cons_of_subset _ (List.subset_append_right ..)
  | test | firstArg | firstComponent | label | loopCondition | stmtScrutinee | thenBranch
  | firstStmt => exact List.subset_append_left ..
  | operand | elseExpr | scrutinee | restArgs | restComponents | body | elseBranch | restStmts =>
    exact List.subset_append_right ..
  | condition | ifCondition =>
    exact List.subset_append_of_subset_left _ (List.subset_append_left ..)
  | thenExpr => exact List.subset_append_of_subset_left _ (List.subset_append_right ..)
  | ifBranches =>
    rw [Part.references, Part.references, Stmt.references, List.append_assoc]
    exact List.subset_append_right ..
  | loopBody =>
    rw [Part.references, Part.references, Block.optionReferences, List.append_nil]
    exact List.subset_append_right ..
  | arm harm => exact List.subset_append_of_subset_left _ (Part.arm_references _ harm)
  | stmtArm harm => exact List.subset_append_of_subset_right _ (Part.arm_references _ harm)

/-- A part that is reached names only what its method names. -/
theorem Reached.references {ctx : Context} {m : Method} {p : Part} {env : Env}
    (h : Reached ctx m p env) : p.references ⊆ m.references := by
  induction h with
  | @start body hbody =>
    obtain ⟨stmts, span⟩ := body
    rw [Method.references, hbody]
    exact List.Subset.refl _
  | enter _ hstep ih => exact List.Subset.trans hstep.references ih

/-- **The tables of a valid unit answer every lookup.** They hold exactly the declarations of the
unit, each component at its place in its record. Whatever is looked up to turn to a method or at a
point of its body has an entry, so what the tables lack makes no difference. -/
theorem tables_answer_lookups (config : Config) {u : CompilationUnit} (hu : u.validate = .ok u) :
    (Model.ofUnit config.names u).Tabulates u ∧
    (∀ t ∈ u.types, ∀ c ∈ t.components,
      ∃ e, (Model.ofUnit config.names u).component? c.id = some e ∧
        ((Model.ofUnit config.names u).componentBindings e.owner)[e.index]? =
          some (c.id, e.binding)) ∧
    (∀ m ∈ u.allMethods,
      (∀ l ∈ (Model.ofUnit config.names u).entryLookups m, l.Succeeds (.ofUnit config.names u)) ∧
      ∀ p env, Reached (config.context u m) m p env →
        ∀ l ∈ (Model.ofUnit config.names u).lookups p.references,
          l.Succeeds (.ofUnit config.names u)) ∧
    ∀ bigger : Model, bigger.Extends (.ofUnit config.names u) → ∀ m ∈ u.allMethods,
      checkMethod config.names bigger m =
        checkMethod config.names (.ofUnit config.names u) m := by
  refine ⟨Model.tabulates hu, ?_, ?_, fun bigger h m hm => checkMethod_of_extends hu h hm⟩
  · intro t ht c hc
    obtain ⟨e, he⟩ := Option.isSome_iff_exists.1 (Model.component?_isSome hu ht hc)
    exact ⟨e, he, Model.componentBindings_getElem? hu he⟩
  · intro m hm
    have hmethod : m.references ⊆ u.references := fun r hr => List.mem_flatMap.2 ⟨m, hm, hr⟩
    refine ⟨fun l hl => Model.entryLookups_succeed hu hm hl, ?_⟩
    intro p env h l hl
    exact Model.lookups_succeed hu (List.Subset.trans h.references hmethod) hl

/-! ## A method that matches, builds and calls -/

namespace Rewrapping

/-- `x instanceof Wrap(y) ? new Wrap(y) : rewrap(inner)` -/
def result : Expr :=
  let bound : PatternVar := { id := ⟨4⟩, name := "y", annots := [], span := .spot 6 }
  .conditional
    (.instanceOf (.var ⟨3⟩ (.spot 5)) (.record ⟨0⟩ [.variable bound (.spot 6)] (.spot 6)) (.spot 5))
    (.construct ⟨0⟩ [.var ⟨4⟩ (.spot 7)] (.spot 7))
    (.call none ⟨2⟩ [.field none ⟨1⟩ (.spot 9)] (.spot 8)) (.spot 5)

/-- `Term rewrap(Term x) { return x instanceof Wrap(y) ? new Wrap(y) : rewrap(inner); }` -/
def method : Method :=
  { id := ⟨2⟩
    name := "rewrap"
    isStatic := false
    annots := []
    returnType := some "Term"
    params := [
      { id := ⟨3⟩, name := "x", type := "Term", annots := [], isVarargs := false, span := .spot 3 }]
    body := some (.mk [.ret (some result) (.spot 4)] (.spot 4))
    span := .spot 2 }

/-- `record Wrap(@Closed Term inner)` with the method. -/
def unit : CompilationUnit :=
  let inner : Component :=
    { id := ⟨1⟩, name := "inner", type := "Term", annots := [{ name := "Closed", span := .spot 1 }],
      span := .spot 1 }
  { name := "rewrapping"
    types := [
      { id := ⟨0⟩, name := "Wrap", annots := [], shape := .record [inner], supertypes := ["Term"],
        methods := [method], span := .spot 0 }]
    methods := [] }

def model : Model :=
  .ofUnit ({} : Config).names unit

/-- The tables with an entry for an id that is not declared. -/
def bigger : Model :=
  { model with
    params := model.params.insert ⟨9⟩
      { decl := { id := ⟨9⟩, name := "z", type := "Term", annots := [], isVarargs := false,
                  span := .spot 9 }
        binding := .noInherit } }

theorem bigger_extends : bigger.Extends model := by
  refine ⟨rfl, fun l hl => ?_⟩
  cases l with
  | type id | component id | method id => rfl
  | callee id => exact ⟨rfl, rfl⟩
  | param id =>
    have hnone : ¬ (model.param? ⟨9⟩).isSome := by decide
    have hne : id ≠ ⟨9⟩ := fun h => hnone (h ▸ hl)
    exact Table.get?_insert_of_ne _ hne _

end Rewrapping

/-- What the method returns looks up a record, what it matches and builds, and what it calls. -/
theorem tables_answer_lookups_rewrapping :
    Rewrapping.unit.validate = .ok Rewrapping.unit ∧
      Rewrapping.model.Tabulates Rewrapping.unit ∧
      (∃ env, Reached (({} : Config).context Rewrapping.unit Rewrapping.method) Rewrapping.method
        (.expr Rewrapping.result) env) ∧
      Rewrapping.model.lookups Rewrapping.result.references =
        [.type ⟨0⟩, .type ⟨0⟩, .callee ⟨2⟩, .component ⟨1⟩, .component ⟨1⟩, .component ⟨1⟩,
          .param ⟨3⟩] ∧
      (∀ l ∈ Rewrapping.model.lookups Rewrapping.result.references, l.Succeeds Rewrapping.model) ∧
      Rewrapping.bigger.param? ⟨9⟩ ≠ Rewrapping.model.param? ⟨9⟩ ∧
      checkMethod ({} : Config).names Rewrapping.bigger Rewrapping.method =
        checkMethod ({} : Config).names Rewrapping.model Rewrapping.method := by
  have hstart : Reached (({} : Config).context Rewrapping.unit Rewrapping.method)
    Rewrapping.method _ _ := .start rfl
  have hresult := (hstart.enter .firstStmt).enter .returned
  have hmem : Rewrapping.method ∈ Rewrapping.unit.allMethods := List.mem_cons_self
  obtain ⟨htables, -, hlookups, hbigger⟩ := tables_answer_lookups {} (u := Rewrapping.unit) rfl
  exact ⟨rfl, htables, ⟨_, hresult⟩, rfl, (hlookups _ hmem).2 _ _ hresult, nofun,
    hbigger _ Rewrapping.bigger_extends _ hmem⟩

end Closedness
