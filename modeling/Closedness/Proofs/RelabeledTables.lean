import Closedness.Proofs.Relabeling
import Closedness.Proofs.Steps

/-!
# Tables and logs under other labels

A run carries labels along: ids are keys of tables and environments, places and names end up in the
log. Relabelling goes through all of these. Where different ids stay different, what is looked up in
a relabelled table is what was entered, relabelled (`Table.get?_relabel`); so the tables of a
relabelled unit are those of the unit, relabelled (`Model.ofUnit_relabel`), and they give the same
levels and requirements.
-/

namespace Closedness

/-! ## Annotations -/

section Annotations

variable (r : Relabeling)

def Conflict.relabel (c : Conflict) : Conflict :=
  { c with span := r.span c.span }

def Resolution.relabel (resolution : Resolution) : Resolution :=
  { resolution with
    span := resolution.span.map r.span
    conflicts := resolution.conflicts.map (Conflict.relabel r) }

namespace Names

variable (names : Names)

theorem marked_relabel (annots : List Annot) :
    names.marked (annots.map (Annot.relabel r))
      = (names.marked annots).map (Prod.map id (Annot.relabel r)) := by
  have hmarker : ∀ a : Annot, names.marker? (a.relabel r) = names.marker? a := fun _ => rfl
  induction annots with
  | nil => rfl
  | cons a rest ih =>
    simp only [marked] at ih
    simp only [marked, List.map_cons, List.filterMap_cons, hmarker]
    cases names.marker? a with
    | none => exact ih
    | some m => simp only [Option.map_some, ih, List.map_cons, Prod.map, id]

theorem foldl_stronger_relabel (first : Marker × Annot) (rest : List (Marker × Annot)) :
    (rest.map (Prod.map id (Annot.relabel r))).foldl stronger (Prod.map id (Annot.relabel r) first)
      = Prod.map id (Annot.relabel r) (rest.foldl stronger first) := by
  rw [List.foldl_map]
  refine List.foldl_hom _ fun a b => ?_
  simp only [stronger, Prod.map, id]
  split <;> rfl

/-- The same markers are overridden, at relabelled places. -/
theorem losers_relabel (best : Marker) (marked : List (Marker × Annot)) (seen : List Marker) :
    losers best (marked.map (Prod.map id (Annot.relabel r))) seen
      = (losers best marked seen).map (Annot.relabel r) := by
  induction marked generalizing seen with
  | nil => rfl
  | cons pair rest ih =>
    obtain ⟨m, a⟩ := pair
    simp only [List.map_cons, Prod.map, id, losers]
    split
    · exact ih seen
    · rw [List.map_cons]
      exact congrArg _ (ih (m :: seen))

/-- Relabelled annotations are resolved alike, with conflicts at relabelled places. -/
theorem resolve_relabel (annots : List Annot) :
    names.resolve (annots.map (Annot.relabel r)) = (names.resolve annots).relabel r := by
  simp only [resolve, marked_relabel]
  cases names.marked annots with
  | nil => rfl
  | cons first rest =>
    simp only [List.map_cons, foldl_stronger_relabel]
    have hlosers := losers_relabel r (rest.foldl stronger first).1 (first :: rest) []
    rw [List.map_cons] at hlosers
    simp only [Prod.map, id] at hlosers ⊢
    simp only [hlosers, Resolution.relabel, List.map_map, Option.map_some]
    rfl

end Names

end Annotations

/-! ## Logs -/

section Logs

variable (r : Relabeling)

def Diagnostic.relabel (d : Diagnostic) : Diagnostic :=
  { d with span := r.span d.span }

def Note.relabel : Note → Note
  | .conflict decl winner loser => .conflict (r.decl decl) winner loser
  | .model unit types components methods => .model unit types components methods
  | .method name self returns => .method (r.name name) self returns
  | .markerDropped name level => .markerDropped (r.name name) level
  | .initialised name level => .initialised (r.name name) level
  | .judged span value required site verdict => .judged (r.span span) value required site verdict
  | .matched name level incoming => .matched (r.name name) level incoming
  | .done unit diagnostics unreliable => .done unit diagnostics unreliable

def Event.relabel : Event → Event
  | .found d => .found (d.relabel r)
  | .unreliable id => .unreliable (r.decl id)
  | .noted n => .noted (n.relabel r)

theorem Event.ofConflicts_relabel (id : DeclId) (conflicts : List Conflict) :
    ofConflicts (r.decl id) (conflicts.map (Conflict.relabel r))
      = (ofConflicts id conflicts).map (relabel r) := by
  cases conflicts with
  | nil => rfl
  | cons c rest =>
    simp only [ofConflicts, List.map_cons, List.flatMap_cons, List.map_append, List.flatMap_map,
      List.map_flatMap]
    rfl

variable (options : Options)

theorem finding_relabel {d d' : Diagnostic} (h : d' = d.relabel r) :
    options.finding d' = (options.finding d).map (Event.relabel r) := by
  subst h
  unfold Options.finding
  show (if options.admits d.kind then _ else _) = _
  split <;> rfl

/-- A judgement at a relabelled place logs the relabelled finding. -/
theorem judgementLog_relabel (required : Level) (value : ValueLevel) (site : Site) (span : Span) :
    judgementLog options required value site (r.span span)
      = (judgementLog options required value site span).map (Event.relabel r) := by
  simp only [judgementLog, List.map_cons]
  cases judge required value site with
  | pass => rfl
  | mismatch actual | cast actual | unchecked =>
    simp only [Verdict.diagnostic?, Option.toList_some, List.flatMap_singleton]
    exact congrArg _ (finding_relabel r options rfl)

theorem positionLog_relabel (required : Option Level) (value : ValueLevel) (site : Site)
    (span : Span) :
    positionLog options required value site (r.span span)
      = (positionLog options required value site span).map (Event.relabel r) := by
  cases required with
  | none => rfl
  | some required => exact judgementLog_relabel r options required value site span

theorem redundancyLog_relabel (annotated : Level) (value : ValueLevel) (span : Option Span) :
    redundancyLog options annotated value (span.map r.span)
      = (redundancyLog options annotated value span).map (Event.relabel r) := by
  cases span with
  | none => rfl
  | some span =>
    simp only [Option.map_some, redundancyLog]
    split
    · exact finding_relabel r options rfl
    · rfl

theorem narrowingLog_relabel (declared : Level) (incoming : ValueLevel) (span : Span) :
    narrowingLog options declared incoming (r.span span)
      = (narrowingLog options declared incoming span).map (Event.relabel r) := by
  unfold narrowingLog
  split
  · split
    · split
      · exact finding_relabel r options rfl
      · rfl
    · rfl
  · rfl

end Logs

/-! ## Tables and variables -/

namespace Table

variable {α β : Type}

/-- The table under other ids, with its entries changed by `g`. -/
def relabel (f : DeclId → DeclId) (g : α → β) (t : Table α) : Table β :=
  ⟨t.entries.map (Prod.map f g)⟩

theorem size_relabel (f : DeclId → DeclId) (g : α → β) (t : Table α) :
    (t.relabel f g).size = t.size :=
  List.length_map _

theorem map_relabel {f : DeclId → DeclId} {g : α → β} {k : DeclId → α → α} {k' : DeclId → β → β}
    (h : ∀ id a, k' (f id) (g a) = g (k id a)) (t : Table α) :
    (t.relabel f g).map k' = (t.map k).relabel f g := by
  simp only [relabel, map, List.map_map]
  congr 2
  funext e
  simp only [Function.comp_apply, Prod.map, h]

variable {f : DeclId → DeclId} (hf : Function.Injective f) (g : α → β)
include hf

theorem find?_relabel (id : DeclId) (entries : List (DeclId × α)) :
    find? (f id) (entries.map (Prod.map f g)) = (find? id entries).map g := by
  induction entries with
  | nil => rfl
  | cons e rest ih =>
    simp only [List.map_cons, find?, Prod.map, hf.eq_iff, ih]
    split <;> rfl

theorem put_relabel (id : DeclId) (value : α) (entries : List (DeclId × α)) :
    put (f id) (g value) (entries.map (Prod.map f g))
      = (put id value entries).map (Prod.map f g) := by
  induction entries with
  | nil => rfl
  | cons e rest ih =>
    simp only [List.map_cons, put, Prod.map, hf.eq_iff]
    split
    · rfl
    · rw [List.map_cons]
      exact congrArg _ ih

theorem get?_relabel (t : Table α) (id : DeclId) :
    (t.relabel f g).get? (f id) = (t.get? id).map g :=
  find?_relabel hf g id t.entries

theorem contains_relabel (t : Table α) (id : DeclId) :
    (t.relabel f g).contains (f id) = t.contains id := by
  rw [contains, contains, get?_relabel hf, Option.isSome_map]

theorem insert_relabel (t : Table α) (id : DeclId) (value : α) :
    (t.relabel f g).insert (f id) (g value) = (t.insert id value).relabel f g :=
  congrArg Table.mk (put_relabel hf g id value t.entries)

theorem ofList_relabel (values : List (DeclId × α)) :
    ofList (values.map (Prod.map f g)) = (ofList values).relabel f g := by
  have hfold : ∀ t : Table α,
      (values.map (Prod.map f g)).foldl (fun t v => t.insert v.1 v.2) (t.relabel f g)
        = (values.foldl (fun t v => t.insert v.1 v.2) t).relabel f g := by
    intro t
    rw [List.foldl_map]
    exact List.foldl_hom (relabel f g) fun t v => insert_relabel hf g t v.1 v.2
  exact hfold {}

end Table

section Variables

variable (r : Relabeling)

def VarState.relabel (s : VarState) : VarState :=
  { s with pinnedAt := s.pinnedAt.map r.span }

def Frame.relabel (frame : Frame) : Frame :=
  Table.relabel r.decl (VarState.relabel r) frame

def Env.relabel (env : Env) : Env :=
  { inner := Frame.relabel r env.inner, outer := env.outer.map (Frame.relabel r) }

theorem VarState.ofBinding_relabel (binding : Binding) (span : Option Span)
    (type : Option String) :
    ofBinding binding (span.map r.span) type = (ofBinding binding span type).relabel r := by
  match binding with
  | .noInherit | .level .inherit | .level .bound | .level .closed => rfl

namespace Env

theorem pop_relabel (env : Env) : (env.relabel r).pop = env.pop.relabel r := by
  obtain ⟨inner, outer⟩ := env
  cases outer <;> rfl

variable {r} (hr : Function.Injective r.decl)
include hr

theorem declare_relabel (env : Env) (id : DeclId) (state : VarState) :
    (env.relabel r).declare (r.decl id) (state.relabel r) = (env.declare id state).relabel r := by
  simp only [declare, relabel, Frame.relabel, Table.insert_relabel hr]

theorem lookup_relabel (id : DeclId) (frames : List Frame) :
    lookup (r.decl id) (frames.map (Frame.relabel r))
      = (lookup id frames).map (VarState.relabel r) := by
  induction frames with
  | nil => rfl
  | cons frame rest ih =>
    rw [List.map_cons, lookup, lookup, Frame.relabel, Table.get?_relabel hr, ih]
    cases frame.get? id <;> rfl

/-- A variable is found under its new id, as long as ids stay different. -/
theorem get?_relabel (env : Env) (id : DeclId) :
    (env.relabel r).get? (r.decl id) = (env.get? id).map (VarState.relabel r) :=
  lookup_relabel hr id env.frames

theorem level?_relabel (env : Env) (id : DeclId) :
    (env.relabel r).level? (r.decl id) = env.level? id := by
  rw [level?, level?, get?_relabel hr, Option.map_map]
  rfl

theorem setIn_relabel (id : DeclId) (level : ValueLevel) (frame : Frame) :
    setIn (r.decl id) level (Frame.relabel r frame) = Frame.relabel r (setIn id level frame) := by
  refine Table.map_relabel (fun key state => ?_) frame
  simp only [hr.eq_iff]
  split <;> rfl

theorem setLevel_relabel (id : DeclId) (level : ValueLevel) (frames : List Frame) :
    setLevel (r.decl id) level (frames.map (Frame.relabel r))
      = (setLevel id level frames).map (Frame.relabel r) := by
  induction frames with
  | nil => rfl
  | cons frame rest ih =>
    have hcontains : (Frame.relabel r frame).contains (r.decl id) = frame.contains id :=
      Table.contains_relabel hr _ frame id
    rw [List.map_cons, setLevel, setLevel, hcontains, setIn_relabel hr, ih]
    split <;> rfl

theorem assign_relabel (env : Env) (id : DeclId) (level : ValueLevel) :
    (env.relabel r).assign (r.decl id) level = (env.assign id level).relabel r := by
  have hcontains : (Frame.relabel r env.inner).contains (r.decl id) = env.inner.contains id :=
    Table.contains_relabel hr _ env.inner id
  simp only [assign, relabel, hcontains, setIn_relabel hr, setLevel_relabel hr]
  split <;> rfl

theorem merge_relabel (env other : Env) :
    (env.relabel r).merge (other.relabel r) = (env.merge other).relabel r := by
  have hframe : ∀ frame : Frame, (Frame.relabel r frame).map (other.relabel r).join
      = Frame.relabel r (frame.map other.join) := by
    intro frame
    refine Table.map_relabel (fun id state => ?_) frame
    unfold join
    rw [level?_relabel hr]
    cases other.level? id <;> rfl
  have houter : (env.relabel r).outer.map (Table.map (other.relabel r).join)
      = (env.outer.map (Table.map other.join)).map (Frame.relabel r) := by
    simp only [relabel, List.map_map]
    exact List.map_congr_left fun frame _ => hframe frame
  have hinner : (env.relabel r).inner.map (other.relabel r).join
      = Frame.relabel r (env.inner.map other.join) := hframe env.inner
  rw [merge, hinner, houter]
  rfl

theorem foldl_merge_relabel (env : Env) (others : List Env) :
    (others.map (relabel r)).foldl merge (env.relabel r) = (others.foldl merge env).relabel r := by
  rw [List.foldl_map]
  exact List.foldl_hom (relabel r) fun a b => merge_relabel hr a b

end Env

end Variables

/-! ## Models -/

section Models

variable (r : Relabeling)

def TypeEntry.relabel (t : TypeEntry) : TypeEntry :=
  { t with decl := t.decl.relabel r }

def ComponentEntry.relabel (c : ComponentEntry) : ComponentEntry :=
  { c with decl := c.decl.relabel r, owner := r.decl c.owner }

def MethodEntry.relabel (m : MethodEntry) : MethodEntry :=
  { m with decl := m.decl.relabel r, owner := m.owner.map r.decl }

def ParamEntry.relabel (p : ParamEntry) : ParamEntry :=
  { p with decl := p.decl.relabel r }

def Model.relabel (model : Model) : Model :=
  { types := model.types.relabel r.decl (TypeEntry.relabel r)
    typeNames := model.typeNames.map (Prod.map id r.decl)
    components := model.components.relabel r.decl (ComponentEntry.relabel r)
    methods := model.methods.relabel r.decl (MethodEntry.relabel r)
    params := model.params.relabel r.decl (ParamEntry.relabel r) }

theorem Method.paramAt?_relabel (m : Method) (index : Nat) :
    (m.relabel r).paramAt? index = (m.paramAt? index).map (Param.relabel r) := by
  simp only [paramAt?, relabel, List.getElem?_map, List.getLast?_map]
  cases m.params[index]? with
  | some p => rfl
  | none => rw [Option.map_none, Option.filter_map]; rfl

namespace Model

variable {r} (hr : Function.Injective r.decl) (model : Model)
include hr

theorem type?_relabel (id : DeclId) :
    (model.relabel r).type? (r.decl id) = (model.type? id).map (TypeEntry.relabel r) :=
  Table.get?_relabel hr _ model.types id

theorem component?_relabel (id : DeclId) :
    (model.relabel r).component? (r.decl id)
      = (model.component? id).map (ComponentEntry.relabel r) :=
  Table.get?_relabel hr _ model.components id

theorem method?_relabel (id : DeclId) :
    (model.relabel r).method? (r.decl id) = (model.method? id).map (MethodEntry.relabel r) :=
  Table.get?_relabel hr _ model.methods id

theorem param?_relabel (id : DeclId) :
    (model.relabel r).param? (r.decl id) = (model.param? id).map (ParamEntry.relabel r) :=
  Table.get?_relabel hr _ model.params id

theorem typeName?_relabel (id : DeclId) :
    (model.relabel r).typeName? (r.decl id) = model.typeName? id := by
  rw [typeName?, typeName?, type?_relabel hr, Option.map_map]
  rfl

/-- Names of types keep their levels. -/
theorem typeLevel_relabel : (model.relabel r).typeLevel = model.typeLevel := by
  funext name
  have hnamed : (model.relabel r).typeNamed? name
      = (model.typeNamed? name).map (TypeEntry.relabel r) := by
    have hfind : ((model.relabel r).typeNames.find? fun t => t.1 = name)
        = (model.typeNames.find? fun t => t.1 = name).map (Prod.map id r.decl) := by
      simp only [relabel, List.find?_map]
      rfl
    rw [typeNamed?, typeNamed?, hfind]
    cases model.typeNames.find? fun t => t.1 = name with
    | none => rfl
    | some pair => exact type?_relabel hr model pair.2
  rw [typeLevel, typeLevel, hnamed]
  cases model.typeNamed? name <;> rfl

theorem explicitTypeLevel?_relabel :
    (model.relabel r).explicitTypeLevel? = model.explicitTypeLevel? := by
  funext name
  rw [explicitTypeLevel?, explicitTypeLevel?, typeLevel_relabel hr]

theorem declaredBinding_relabel : (model.relabel r).declaredBinding = model.declaredBinding := by
  funext own type
  unfold declaredBinding
  rw [typeLevel_relabel hr]

theorem variantLevel_relabel (id : DeclId) :
    (model.relabel r).variantLevel (r.decl id) = model.variantLevel id := by
  rw [variantLevel, variantLevel, type?_relabel hr]
  cases model.type? id <;> rfl

theorem constructionLevel_relabel (id : DeclId) :
    (model.relabel r).constructionLevel (r.decl id) = model.constructionLevel id := by
  rw [constructionLevel, constructionLevel, variantLevel_relabel hr]

theorem componentBinding_relabel (id : DeclId) :
    (model.relabel r).componentBinding (r.decl id) = model.componentBinding id := by
  rw [componentBinding, componentBinding, component?_relabel hr]
  cases model.component? id <;> rfl

theorem paramBinding_relabel (id : DeclId) :
    (model.relabel r).paramBinding (r.decl id) = model.paramBinding id := by
  rw [paramBinding, paramBinding, param?_relabel hr]
  cases model.param? id <;> rfl

theorem componentBindings_relabel (id : DeclId) :
    (model.relabel r).componentBindings (r.decl id)
      = (model.componentBindings id).map (Prod.map r.decl fun binding => binding) := by
  rw [componentBindings, componentBindings, type?_relabel hr]
  cases model.type? id with
  | none => rfl
  | some t =>
    simp only [Option.map_some, TypeEntry.relabel, TypeDecl.components_relabel, List.map_map]
    congr 1
    funext c
    exact congrArg (r.decl c.id, ·) (componentBinding_relabel hr model c.id)

theorem componentType?_relabel (id : DeclId) :
    (model.relabel r).componentType? (r.decl id) = model.componentType? id := by
  rw [componentType?, componentType?, component?_relabel hr, Option.map_map]
  rfl

theorem returnType?_relabel (id : DeclId) :
    (model.relabel r).returnType? (r.decl id) = model.returnType? id := by
  rw [returnType?, returnType?, method?_relabel hr]
  cases model.method? id <;> rfl

theorem accessLevel_relabel (component : DeclId) (receiver : ValueLevel) :
    (model.relabel r).accessLevel (r.decl component) receiver
      = model.accessLevel component receiver := by
  rw [accessLevel, accessLevel, componentBinding_relabel hr]

theorem callLevel_relabel (method : DeclId) (receiver : Option ValueLevel) :
    (model.relabel r).callLevel (r.decl method) receiver = model.callLevel method receiver := by
  rw [callLevel, callLevel, method?_relabel hr, explicitTypeLevel?_relabel hr]
  cases model.method? method <;> rfl

/-- A call of the relabelled callee gives the same level. -/
theorem callResult_relabel (callee : DeclId) (receiver self : Option ValueLevel) :
    (model.relabel r).callResult (r.decl callee) receiver self
      = model.callResult callee receiver self := by
  simp only [callResult, component?_relabel hr, method?_relabel hr, accessLevel_relabel hr,
    callLevel_relabel hr]
  cases model.component? callee <;> cases model.method? callee <;> rfl

theorem argRequirement?_relabel (callee : DeclId) :
    (model.relabel r).argRequirement? (r.decl callee) = model.argRequirement? callee := by
  funext index
  simp only [argRequirement?, component?_relabel hr, method?_relabel hr]
  cases model.component? callee with
  | some c => rfl
  | none =>
    cases model.method? callee with
    | none => rfl
    | some m =>
      simp only [Option.map_none, Option.map_some, MethodEntry.relabel, Method.paramAt?_relabel]
      cases m.decl.paramAt? index with
      | none => rfl
      | some p => exact congrArg Binding.explicit? (paramBinding_relabel hr model p.id)

theorem componentRequirement?_relabel (variant : DeclId) :
    (model.relabel r).componentRequirement? (r.decl variant)
      = model.componentRequirement? variant := by
  funext index
  rw [componentRequirement?, componentRequirement?, componentBindings_relabel hr,
    List.getElem?_map]
  cases (model.componentBindings variant)[index]? <;> rfl

end Model

end Models

/-! ## Tabulating a unit -/

section Tabulating

variable (r : Relabeling) (names : Names)

theorem Model.annotatedLevel_relabel (annots : List Annot) :
    annotatedLevel names (annots.map (Annot.relabel r)) = annotatedLevel names annots := by
  rw [annotatedLevel, annotatedLevel, Names.resolve_relabel]
  rfl

theorem Model.annotatedBinding_relabel (annots : List Annot) :
    annotatedBinding names (annots.map (Annot.relabel r)) = annotatedBinding names annots := by
  rw [annotatedBinding, annotatedBinding, Names.resolve_relabel]
  rfl

theorem Model.componentEntries_relabel (t : TypeDecl) :
    componentEntries names (t.relabel r)
      = (componentEntries names t).map (Prod.map r.decl (ComponentEntry.relabel r)) := by
  refine List.ext_getElem? fun index => ?_
  simp only [componentEntries, TypeDecl.components_relabel, List.getElem?_mapIdx,
    List.getElem?_map, Option.map_map]
  cases t.components[index]? with
  | none => rfl
  | some c =>
    simp only [Option.map_some, Function.comp_apply, Component.relabel, annotatedBinding_relabel]
    rfl

theorem Model.methodEntry_relabel (owner : Option DeclId) (m : Method) :
    methodEntry names (owner.map r.decl) (m.relabel r)
      = Prod.map r.decl (MethodEntry.relabel r) (methodEntry names owner m) := by
  have hbinding := annotatedBinding_relabel r names m.annots
  simp only [methodEntry]
  rw [show (m.relabel r).annots = m.annots.map (Annot.relabel r) from rfl, hbinding]
  rfl

/-- The headers of a relabelled unit declare the relabelled things. -/
theorem Model.headers_relabel (u : CompilationUnit) :
    headers (u.relabel r) = (headers u).map (Declaration.relabel r) := by
  have hmethod : ∀ m : Method,
      methodHeaders (m.relabel r) = (methodHeaders m).map (Declaration.relabel r) := by
    intro m
    simp only [methodHeaders, Method.relabel, List.map_cons, List.map_map]
    rfl
  have hcomponents : ∀ t : TypeDecl, (t.relabel r).components.map Component.declaration
      = (t.components.map Component.declaration).map (Declaration.relabel r) := by
    intro t
    rw [TypeDecl.components_relabel, List.map_map, List.map_map]
    rfl
  have hmethods : ∀ t : TypeDecl, (t.relabel r).methods = t.methods.map (Method.relabel r) :=
    fun _ => rfl
  simp only [headers, CompilationUnit.relabel, List.map_append, List.map_map, List.flatMap_map,
    List.map_flatMap, hmethod, hcomponents, hmethods]
  congr 3
  funext t
  exact t.declaration_relabel r

/-- A relabelled declaration logs the relabelled conflicts. -/
theorem Model.declarationLog_relabel (d : Declaration) :
    declarationLog names (d.relabel r) = (declarationLog names d).map (Event.relabel r) := by
  rw [declarationLog, declarationLog, Declaration.relabel, Names.resolve_relabel]
  exact Event.ofConflicts_relabel r d.id _

variable {r} (hr : Function.Injective r.decl)
include hr

theorem Model.ofTypes_relabel (types : List TypeDecl) :
    ofTypes names (types.map (TypeDecl.relabel r)) = (ofTypes names types).relabel r := by
  have hentries : (types.map (TypeDecl.relabel r)).map
        (fun t => (t.id, ({ decl := t, level := annotatedLevel names t.annots } : TypeEntry)))
      = (types.map fun t =>
          (t.id, ({ decl := t, level := annotatedLevel names t.annots } : TypeEntry))).map
        (Prod.map r.decl (TypeEntry.relabel r)) := by
    simp only [List.map_map]
    congr 1
    funext t
    simp only [Function.comp_apply, TypeDecl.relabel, annotatedLevel_relabel]
    rfl
  have hnames : (types.map (TypeDecl.relabel r)).map (fun t => (t.name, t.id))
      = (types.map fun t => (t.name, t.id)).map (Prod.map id r.decl) := by
    simp only [List.map_map]
    rfl
  rw [ofTypes, hentries, hnames, Table.ofList_relabel hr]
  rfl

/-- The tables of a relabelled unit are its tables, relabelled. -/
theorem Model.ofUnit_relabel (u : CompilationUnit) :
    ofUnit names (u.relabel r) = (ofUnit names u).relabel r := by
  have htypes := ofTypes_relabel names hr u.types
  have hcomponents : (u.relabel r).types.flatMap (componentEntries names)
      = (u.types.flatMap (componentEntries names)).map
        (Prod.map r.decl (ComponentEntry.relabel r)) := by
    simp only [CompilationUnit.relabel, List.flatMap_map, List.map_flatMap,
      componentEntries_relabel]
  have hentries : ∀ (owner : Option DeclId) (ms : List Method),
      (ms.map (Method.relabel r)).map (methodEntry names (owner.map r.decl))
        = (ms.map (methodEntry names owner)).map (Prod.map r.decl (MethodEntry.relabel r)) := by
    intro owner ms
    rw [List.map_map, List.map_map]
    exact List.map_congr_left fun m _ => methodEntry_relabel r names owner m
  have hmethods :
      (u.relabel r).types.flatMap (fun t => t.methods.map (methodEntry names (some t.id)))
        ++ (u.relabel r).methods.map (methodEntry names none)
      = (u.types.flatMap (fun t => t.methods.map (methodEntry names (some t.id)))
        ++ u.methods.map (methodEntry names none)).map
          (Prod.map r.decl (MethodEntry.relabel r)) := by
    rw [List.map_append, ← hentries none, List.map_flatMap]
    simp only [CompilationUnit.relabel, List.flatMap_map, ← hentries]
    rfl
  have hparam : ∀ p : Param,
      paramEntry names ((ofTypes names u.types).relabel r) (p.relabel r)
        = Prod.map r.decl (ParamEntry.relabel r) (paramEntry names (ofTypes names u.types) p) := by
    intro p
    rw [paramEntry, paramEntry, declaredBinding_relabel hr]
    simp only [Param.relabel, Names.resolve_relabel]
    rfl
  have hparams : ((u.relabel r).allMethods.flatMap fun m =>
        m.params.map (paramEntry names (ofTypes names (u.relabel r).types)))
      = (u.allMethods.flatMap fun m =>
        m.params.map (paramEntry names (ofTypes names u.types))).map
          (Prod.map r.decl (ParamEntry.relabel r)) := by
    have hlevels : ofTypes names (u.relabel r).types = (ofTypes names u.types).relabel r := htypes
    simp only [CompilationUnit.allMethods_relabel, List.flatMap_map, List.map_flatMap, hlevels,
      Method.relabel, List.map_map, Function.comp_def, hparam]
  have htypeTable : (ofTypes names (u.relabel r).types).types
      = (ofTypes names u.types).types.relabel r.decl (TypeEntry.relabel r) :=
    congrArg Model.types htypes
  have htypeNames : (ofTypes names (u.relabel r).types).typeNames
      = (ofTypes names u.types).typeNames.map (Prod.map id r.decl) :=
    congrArg Model.typeNames htypes
  simp only [ofUnit, hcomponents, hmethods, hparams, htypeTable, htypeNames,
    Table.ofList_relabel hr]
  rfl

/-- Tabulating a relabelled unit logs the same, relabelled. -/
theorem Model.log_relabel (u : CompilationUnit) :
    log names (u.relabel r) = (log names u).map (Event.relabel r) := by
  simp only [log, headers_relabel, ofUnit_relabel names hr, List.flatMap_map, List.map_append,
    List.map_flatMap, declarationLog_relabel]
  simp only [relabel, Table.size_relabel]
  rfl

end Tabulating

end Closedness
