import Closedness.Proofs.Agreement

/-!
# Walks see headers only

Walking a body looks up the declarations in headers: types, components, methods and their
parameters, but no bodies, and not which methods a type has. Tables that are the same apart from
that (`Model.AlikeAt`) give contexts that agree (`Context.ofMethod_agreesOn`). The headers of a unit
answer as the unit itself (`Model.alikeAt_header`), so the walk through a method depends on its own
body and on the headers of its unit (`checkMethod_congr`).
-/

namespace Closedness

/-! ## The headers of a unit -/

/-- The method without its body. -/
def Method.header (m : Method) : Method :=
  { m with body := none }

def TypeDecl.header (t : TypeDecl) : TypeDecl :=
  { t with methods := t.methods.map Method.header }

/-- The unit without any bodies. -/
def CompilationUnit.header (u : CompilationUnit) : CompilationUnit :=
  { u with types := u.types.map TypeDecl.header, methods := u.methods.map Method.header }

def TypeEntry.header (t : TypeEntry) : TypeEntry :=
  { t with decl := t.decl.header }

def MethodEntry.header (m : MethodEntry) : MethodEntry :=
  { m with decl := m.decl.header }

/-- The entry of a type without its methods. -/
def TypeEntry.bare (t : TypeEntry) : TypeEntry :=
  { t with decl := { t.decl with methods := [] } }

theorem Method.mem_of_paramAt? {m : Method} {index : Nat} {p : Param}
    (h : m.paramAt? index = some p) : p ∈ m.params := by
  unfold Method.paramAt? at h
  split at h
  · next hindex => exact Option.some.inj h ▸ List.mem_of_getElem? hindex
  · exact List.mem_of_getLast? (Option.mem_filter_iff.1 h).1

/-! ## Tables that are alike -/

namespace Model

/-- The tables give the same answer to a lookup, apart from methods of types and bodies of
methods. -/
def AlikeAt (a b : Model) : Lookup → Prop
  | .type id => (a.type? id).map TypeEntry.bare = (b.type? id).map TypeEntry.bare
  | .component id => a.component? id = b.component? id
  | .callee id => a.component? id = b.component? id ∧
    (a.method? id).map MethodEntry.header = (b.method? id).map MethodEntry.header
  | .method id => (a.method? id).map MethodEntry.header = (b.method? id).map MethodEntry.header
  | .param id => a.param? id = b.param? id

/-- The lookups that the answer to a lookup leads to: the components of a type, the parameters of
what is called, the type that declares a method. -/
def follows (model : Model) : Lookup → List Lookup
  | .type id => (model.type? id).toList.flatMap fun t =>
    t.decl.components.map fun c => .component c.id
  | .callee id => (model.method? id).toList.flatMap fun m => m.decl.params.map fun p => .param p.id
  | .method id => ((model.method? id).bind MethodEntry.owner).toList.map .type
  | .component _ | .param _ => []

namespace AlikeAt

variable {a b : Model} {id : DeclId}

theorem type? (h : a.AlikeAt b (.type id)) : (a.type? id = none ∧ b.type? id = none) ∨
    ∃ t t', a.type? id = some t ∧ b.type? id = some t' ∧ t.bare = t'.bare := by
  unfold AlikeAt at h
  cases ha : a.type? id <;> cases hb : b.type? id <;> simp_all

/-- A method that tables answer alike has one header in both, or no entry in either. -/
theorem method? (h : a.AlikeAt b (.method id)) : (a.method? id = none ∧ b.method? id = none) ∨
    ∃ m m', a.method? id = some m ∧ b.method? id = some m' ∧ m.header = m'.header := by
  unfold AlikeAt at h
  cases ha : a.method? id <;> cases hb : b.method? id <;> simp_all

theorem callee (h : a.AlikeAt b (.callee id)) : a.AlikeAt b (.method id) :=
  h.2

theorem variantLevel (h : a.AlikeAt b (.type id)) : a.variantLevel id = b.variantLevel id := by
  obtain ⟨ha, hb⟩ | ⟨t, t', ha, hb, ht⟩ := h.type?
  · simp only [Model.variantLevel, ha, hb]
  · simp only [Model.variantLevel, ha, hb]
    exact congrArg (fun t => t.level) ht

theorem typeName? (h : a.AlikeAt b (.type id)) : a.typeName? id = b.typeName? id := by
  obtain ⟨ha, hb⟩ | ⟨t, t', ha, hb, ht⟩ := h.type?
  · simp only [Model.typeName?, ha, hb]
  · simp only [Model.typeName?, ha, hb, Option.map_some]
    exact congrArg (fun t => some t.decl.name) ht

theorem componentBinding (h : a.AlikeAt b (.component id)) :
    a.componentBinding id = b.componentBinding id := by
  unfold AlikeAt at h
  rw [Model.componentBinding, Model.componentBinding, h]

theorem componentType? (h : a.AlikeAt b (.component id)) :
    a.componentType? id = b.componentType? id := by
  unfold AlikeAt at h
  rw [Model.componentType?, Model.componentType?, h]

theorem paramBinding (h : a.AlikeAt b (.param id)) : a.paramBinding id = b.paramBinding id := by
  unfold AlikeAt at h
  rw [Model.paramBinding, Model.paramBinding, h]

/-- Alike tables ask the same of the components of a type, in the same order. -/
theorem componentBindings (h : a.AlikeAt b (.type id))
    (hfollows : ∀ l ∈ a.follows (.type id), a.AlikeAt b l) :
    a.componentBindings id = b.componentBindings id := by
  obtain ⟨ha, hb⟩ | ⟨t, t', ha, hb, ht⟩ := h.type?
  · simp only [Model.componentBindings, ha, hb]
  · have hcomponents : t.decl.components = t'.decl.components :=
      congrArg (fun t => t.decl.components) ht
    simp only [Model.componentBindings, ha, hb, ← hcomponents]
    refine List.map_congr_left fun c hc => ?_
    have hlookup : a.AlikeAt b (.component c.id) := by
      refine hfollows _ ?_
      simp only [follows, ha, Option.toList_some, List.flatMap_singleton]
      exact List.mem_map_of_mem hc
    rw [hlookup.componentBinding]

theorem returnType? (h : a.AlikeAt b (.method id)) : a.returnType? id = b.returnType? id := by
  obtain ⟨ha, hb⟩ | ⟨m, m', ha, hb, hm⟩ := h.method?
  · simp only [Model.returnType?, ha, hb]
  · simp only [Model.returnType?, ha, hb, Option.bind_some]
    exact congrArg (fun m => m.decl.returnType) hm

/-- A call gives the same level where the method is known alike. -/
theorem callLevel (h : a.AlikeAt b (.method id)) (hlevel : a.typeLevel = b.typeLevel) :
    a.callLevel id = b.callLevel id := by
  funext receiver
  obtain ⟨ha, hb⟩ | ⟨m, m', ha, hb, hm⟩ := h.method?
  · simp only [Model.callLevel, ha, hb]
  · have hreturns : m.returns = m'.returns := congrArg (fun m => m.returns) hm
    have htype : m.decl.returnType = m'.decl.returnType :=
      congrArg (fun m => m.decl.returnType) hm
    simp only [Model.callLevel, explicitTypeLevel?, ha, hb, hreturns, htype, hlevel]

theorem callResult (h : a.AlikeAt b (.callee id)) (hlevel : a.typeLevel = b.typeLevel) :
    a.callResult id = b.callResult id := by
  have hcomponent : a.AlikeAt b (.component id) := h.1
  funext receiver self
  unfold Model.callResult accessLevel
  rw [h.1, hcomponent.componentBinding, h.callee.callLevel hlevel]
  obtain ⟨ha, hb⟩ | ⟨m, m', ha, hb, hm⟩ := h.callee.method?
  · rw [ha, hb]
  · have hstatic : m.decl.isStatic = m'.decl.isStatic := congrArg (fun m => m.decl.isStatic) hm
    rw [ha, hb]
    cases b.component? id with
    | some c => rfl
    | none => simp only [hstatic]

/-- The same is asked of the arguments of a call. -/
theorem argRequirement? (h : a.AlikeAt b (.callee id))
    (hfollows : ∀ l ∈ a.follows (.callee id), a.AlikeAt b l) :
    a.argRequirement? id = b.argRequirement? id := by
  funext index
  unfold Model.argRequirement?
  rw [h.1]
  cases b.component? id with
  | some c => rfl
  | none =>
    obtain ⟨ha, hb⟩ | ⟨m, m', ha, hb, hm⟩ := h.callee.method?
    · rw [ha, hb]
    · have hparams : m.decl.params = m'.decl.params := congrArg (fun m => m.decl.params) hm
      have hparam : m.decl.paramAt? index = m'.decl.paramAt? index := by
        simp only [Method.paramAt?, hparams]
      simp only [ha, hb, ← hparam]
      refine Option.bind_congr fun p hp => ?_
      have hlookup : a.AlikeAt b (.param p.id) := by
        refine hfollows _ ?_
        simp only [follows, ha, Option.toList_some, List.flatMap_singleton]
        exact List.mem_map_of_mem (Method.mem_of_paramAt? hp)
      rw [hlookup.paramBinding]

end AlikeAt

end Model

/-- **Tables that are alike give contexts that agree**, if that includes the lookups that lookups
lead to. -/
theorem Context.ofMethod_agreesOn {known : Lookup → Prop} {a b : Model} (names : Names)
    (hlevel : a.typeLevel = b.typeLevel) (halike : ∀ l, known l → a.AlikeAt b l)
    (hfollows : ∀ l, known l → ∀ l' ∈ a.follows l, known l') {m : Method}
    (hm : known (.method m.id)) :
    (Context.ofMethod names a m).AgreesOn known (.ofMethod names b m) := by
  have hnext : ∀ l, known l → ∀ l' ∈ a.follows l, a.AlikeAt b l' := fun l hl l' hl' =>
    halike l' (hfollows l hl l' hl')
  -- what is known of the object is the level and the name of the type that declares the method
  have hobject : ∀ {β : Type} (f : TypeEntry → β), (∀ t, f t.bare = f t) →
      (if m.isStatic then none else ((a.method? m.id).bind MethodEntry.owner).bind a.type?).map f =
      (if m.isStatic then none else
        ((b.method? m.id).bind MethodEntry.owner).bind b.type?).map f := by
    intro β f hf
    obtain ⟨ha, hb⟩ | ⟨e, e', ha, hb, he⟩ := (halike _ hm).method?
    · rw [ha, hb]
      rfl
    · have howner : e.owner = e'.owner := congrArg (fun e => e.owner) he
      rw [ha, hb, Option.bind_some, Option.bind_some, ← howner]
      cases howner' : e.owner with
      | none => rfl
      | some owner =>
        have htype : a.AlikeAt b (.type owner) := by
          refine hnext _ hm _ ?_
          simp [Model.follows, ha, howner']
        split
        · rfl
        · obtain ⟨hta, htb⟩ | ⟨t, t', hta, htb, ht⟩ := htype.type?
          · rw [Option.bind_some, Option.bind_some, hta, htb]
          · rw [Option.bind_some, Option.bind_some, hta, htb, Option.map_some, Option.map_some,
              ← hf, ht, hf]
  have hreturns : (Context.ofMethod names a m).returns = (Context.ofMethod names b m).returns := by
    simp only [Context.ofMethod]
    obtain ⟨ha, hb⟩ | ⟨e, e', ha, hb, he⟩ := (halike _ hm).method?
    · rw [ha, hb]
    · rw [ha, hb]
      exact congrArg (fun e => e.returns.explicit?) he
  exact {
    names := rfl
    self := hobject (fun t => ValueLevel.level t.level) fun _ => rfl
    selfType := hobject (fun t => t.decl.name) fun _ => rfl
    returns := hreturns
    options := rfl
    typeLevel := hlevel
    variantLevel := fun h => (halike _ h).variantLevel
    typeName? := fun h => (halike _ h).typeName?
    componentBindings := fun h => (halike _ h).componentBindings (hnext _ h)
    componentBinding := fun h => (halike _ h).componentBinding
    componentType? := fun h => (halike _ h).componentType?
    calleeType? := fun h => by
      have hcomponent : a.AlikeAt b (.component _) := (halike _ h).1
      show Option.or _ (a.returnType? _) = Option.or _ (b.returnType? _)
      rw [(halike _ h).callee.returnType?]
      exact congrArg (Option.or · _) hcomponent.componentType?
    callResult := fun h => (halike _ h).callResult hlevel
    argRequirement? := fun h => (halike _ h).argRequirement? (hnext _ h)
    paramBinding := fun h => (halike _ h).paramBinding }

/-! ## The headers of a unit as tables -/

namespace Table

variable {α β : Type}

/-- Putting an entry and mapping the values may change places. -/
theorem map_put (f : DeclId → α → β) (id : DeclId) (value : α) (entries : List (DeclId × α)) :
    (put id value entries).map (fun e => (e.1, f e.1 e.2)) =
      put id (f id value) (entries.map fun e => (e.1, f e.1 e.2)) := by
  induction entries with
  | nil => rfl
  | cons e rest ih =>
    by_cases h : e.1 = id
    · simp [put, h]
    · simp [put, h, ih]

/-- Changing every entry of a table made of a list changes the values of the list. -/
theorem map_ofList (f : DeclId → α → β) (values : List (DeclId × α)) :
    (ofList values).map f = ofList (values.map fun v => (v.1, f v.1 v.2)) := by
  have hfold : ∀ (vs : List (DeclId × α)) (t : Table α),
      (vs.foldl (fun t v => t.insert v.1 v.2) t).map f =
        (vs.map fun v => (v.1, f v.1 v.2)).foldl (fun t v => t.insert v.1 v.2) (t.map f) := by
    intro vs
    induction vs with
    | nil => exact fun t => rfl
    | cons v rest ih =>
      intro t
      rw [List.foldl_cons, ih, List.map_cons, List.foldl_cons]
      congr 1
      exact congrArg Table.mk (map_put f v.1 v.2 t.entries)
  exact hfold values {}

end Table

namespace Model

variable (names : Names) (u : CompilationUnit)

/-- Without bodies, the table of types holds the headers of the types. -/
theorem types_header :
    (ofTypes names u.header.types).types =
      (ofTypes names u.types).types.map fun _ => TypeEntry.header := by
  simp only [ofTypes, Table.map_ofList, CompilationUnit.header, List.map_map]
  rfl

theorem type?_header (id : DeclId) :
    (ofUnit names u.header).type? id = ((ofUnit names u).type? id).map TypeEntry.header := by
  show (ofTypes names u.header.types).types.get? id = _
  rw [types_header, Table.get?_map]
  rfl

theorem typeNames_header :
    (ofUnit names u.header).typeNames = (ofUnit names u).typeNames := by
  simp only [ofUnit, ofTypes, CompilationUnit.header, List.map_map]
  rfl

theorem typeLevel_header : (ofUnit names u.header).typeLevel = (ofUnit names u).typeLevel := by
  funext name
  simp only [typeLevel, typeNamed?, typeNames_header]
  cases (ofUnit names u).typeNames.find? fun t => t.1 = name with
  | none => rfl
  | some t =>
    simp only [Option.bind_some, type?_header]
    cases (ofUnit names u).type? t.2 <;> rfl

theorem components_header :
    (ofUnit names u.header).components = (ofUnit names u).components := by
  simp only [ofUnit, CompilationUnit.header, List.flatMap_map]
  rfl

theorem component?_header (id : DeclId) :
    (ofUnit names u.header).component? id = (ofUnit names u).component? id := by
  rw [component?, components_header]
  rfl

/-- Without bodies, the table of methods holds the headers of the methods. -/
theorem methods_header :
    (ofUnit names u.header).methods =
      (ofUnit names u).methods.map fun _ => MethodEntry.header := by
  simp only [ofUnit, Table.map_ofList, CompilationUnit.header, TypeDecl.header, List.map_append,
    List.flatMap_map, List.map_flatMap, List.map_map]
  rfl

theorem method?_header (id : DeclId) :
    (ofUnit names u.header).method? id = ((ofUnit names u).method? id).map MethodEntry.header := by
  rw [method?, methods_header, Table.get?_map]
  rfl

theorem param?_header (id : DeclId) :
    (ofUnit names u.header).param? id = (ofUnit names u).param? id := by
  have hentry : paramEntry names (ofTypes names u.header.types) =
      paramEntry names (ofTypes names u.types) := by
    have hlevel : (ofTypes names u.header.types).typeLevel = (ofTypes names u.types).typeLevel :=
      typeLevel_header names u
    funext p
    unfold paramEntry declaredBinding
    rw [hlevel]
  have hmethods : u.header.allMethods = u.allMethods.map Method.header := by
    simp only [CompilationUnit.allMethods, CompilationUnit.header, TypeDecl.header,
      List.map_append, List.flatMap_map, List.map_flatMap]
  simp only [ofUnit, param?, hentry, hmethods, List.flatMap_map]
  rfl

/-- **The headers of a unit answer as the unit itself.** -/
theorem alikeAt_header (l : Lookup) : (ofUnit names u.header).AlikeAt (ofUnit names u) l := by
  have hmethod : ∀ id, ((ofUnit names u.header).method? id).map MethodEntry.header =
      ((ofUnit names u).method? id).map MethodEntry.header := by
    intro id
    rw [method?_header, Option.map_map]
    rfl
  cases l with
  | type id =>
    show ((ofUnit names u.header).type? id).map TypeEntry.bare = _
    rw [type?_header, Option.map_map]
    rfl
  | component id => exact component?_header names u id
  | callee id => exact ⟨component?_header names u id, hmethod id⟩
  | method id => exact hmethod id
  | param id => exact param?_header names u id

theorem headers_header : headers u.header = headers u := by
  have hmethods : ∀ ms : List Method,
      (ms.map Method.header).flatMap methodHeaders = ms.flatMap methodHeaders := by
    intro ms
    rw [List.flatMap_map]
    rfl
  have htype : ∀ t : TypeDecl, t.header.components = t.components := fun _ => rfl
  simp only [headers, CompilationUnit.header, List.map_map, List.flatMap_map, hmethods, htype]
  simp only [TypeDecl.header, hmethods]
  rfl

/-- What setting up the tables logs does not depend on bodies. -/
theorem log_header : log names u.header = log names u := by
  have htypes : (ofUnit names u.header).types.size = (ofUnit names u).types.size := by
    show (ofTypes names u.header.types).types.size = _
    rw [types_header, Table.size_map]
    rfl
  have hmethods : (ofUnit names u.header).methods.size = (ofUnit names u).methods.size := by
    rw [methods_header, Table.size_map]
  simp only [log, headers_header, htypes, hmethods, components_header]
  rfl

end Model

section Units

variable {names : Names} {u u' : CompilationUnit}

/-- **What walking a method logs depends on the headers of its unit only**, besides the method. -/
theorem checkMethod_congr (h : u.header = u'.header) (m : Method) :
    checkMethod names (.ofUnit names u) m = checkMethod names (.ofUnit names u') m := by
  have hheader : ∀ v : CompilationUnit,
      checkMethod names (.ofUnit names v.header) m = checkMethod names (.ofUnit names v) m := by
    intro v
    have hctx : (Context.ofMethod names (.ofUnit names v.header) m).AgreesOn (fun _ => True)
        (.ofMethod names (.ofUnit names v) m) :=
      Context.ofMethod_agreesOn names (Model.typeLevel_header names v)
        (fun l _ => Model.alikeAt_header names v l) (fun _ _ _ _ => trivial) trivial
    exact checkMethod_of_agreesOn hctx (fun _ _ => trivial) fun _ _ _ _ => trivial
  rw [← hheader u, h, hheader u']

/-- Tabulating the declarations of a unit logs nothing about bodies. -/
theorem Model.log_congr (h : u.header = u'.header) : Model.log names u = Model.log names u' := by
  rw [← log_header names u, h, log_header names u']

end Units

end Closedness
