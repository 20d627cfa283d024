import Closedness.Proofs.Headers
import Closedness.Proofs.Shape
import Closedness.Proofs.Tables
import Mathlib.Data.List.Nodup

/-!
# Methods are checked independently

What a unit is found to have is, before it is put in source order, what its declarations are found
to have and then, method by method, what a new checker finds there (`Config.found_checkLog`). The
segment of a method depends on its own body and on the headers of the unit, so another body in one
place changes one segment (`Config.found_withBody`). Tables with distinct ids do not depend on the
order of what is entered, so rearranging a valid unit (`CompilationUnit.Rearranged`) rearranges what
is logged (`checkLog_rearranged`); only among types of the same name it matters which comes first.
-/

namespace Closedness

/-! ## Segments -/

namespace Config

variable (config : Config)

/-- The findings in a log, in the order in which they are found. -/
def found (log : List Event) : List Diagnostic :=
  (Findings.ofRun config.options log).diagnostics

/-- What a new checker finds in a method of a unit. -/
def segment (u : CompilationUnit) (m : Method) : List Diagnostic :=
  config.found
    (Checker.checkMethod config.names (.ofUnit config.names u) { options := config.options } m).2

/-- What is found in a log are its diagnostics that the options admit. -/
theorem found_eq (log : List Event) :
    config.found log = (Event.diagnostics log).filter fun d => config.options.admits d.kind := by
  rw [found, Findings.ofRun, Findings.diagnostics_ofLog, Event.diagnostics_filter_keeps]

theorem found_append (a b : List Event) :
    config.found (a ++ b) = config.found a ++ config.found b := by
  simp only [found_eq, Event.diagnostics, List.filterMap_append, List.filter_append]

theorem found_flatMap {α : Type} (f : α → List Event) (l : List α) :
    config.found (l.flatMap f) = l.flatMap fun a => config.found (f a) := by
  induction l with
  | nil => rfl
  | cons a rest ih => rw [List.flatMap_cons, List.flatMap_cons, found_append, ih]

/-- A new checker under the options finds what one under all options does, as far as it is asked
for. -/
theorem segment_eq (u : CompilationUnit) (m : Method) :
    config.segment u m = config.found (checkMethod config.names (.ofUnit config.names u) m) := by
  rw [segment, checkMethod_select, found_eq, found_eq, Event.diagnostics_filter_keeps,
    List.filter_filter]
  simp only [Bool.and_self]

/-- **The findings of a unit are those of its declarations and then those of each method.** -/
theorem found_checkLog (u : CompilationUnit) :
    config.found (checkLog config.names u) =
      config.found (Model.log config.names u) ++ u.allMethods.flatMap (config.segment u) := by
  rw [checkLog_eq, found_append, found_flatMap, funext (config.segment_eq u)]

end Config

/-! ## Another body for a method -/

def Method.withBody (id : DeclId) (body : Option Block) (m : Method) : Method :=
  if m.id = id then { m with body } else m

/-- The unit with another body for the method with the given id. -/
def CompilationUnit.withBody (u : CompilationUnit) (id : DeclId) (body : Option Block) :
    CompilationUnit :=
  { u with
    types := u.types.map fun t => { t with methods := t.methods.map (Method.withBody id body) }
    methods := u.methods.map (Method.withBody id body) }

section Bodies

variable (u : CompilationUnit) (id : DeclId) (body : Option Block)

theorem Method.header_withBody (m : Method) : (m.withBody id body).header = m.header := by
  unfold Method.withBody
  split <;> rfl

/-- Another body leaves all the headers of the unit. -/
theorem CompilationUnit.header_withBody : (u.withBody id body).header = u.header := by
  have hmethods : ∀ ms : List Method,
      (ms.map (Method.withBody id body)).map Method.header = ms.map Method.header := by
    intro ms
    rw [List.map_map]
    exact List.map_congr_left fun m _ => m.header_withBody id body
  simp only [header, withBody, TypeDecl.header, List.map_map, Function.comp_def, hmethods]
  rfl

/-- Another body changes the methods with that id, and no other. -/
theorem CompilationUnit.allMethods_withBody :
    (u.withBody id body).allMethods = u.allMethods.map (Method.withBody id body) := by
  simp only [allMethods, withBody, List.map_append, List.map_flatMap, List.flatMap_map]

end Bodies

/-- The ids of the methods of a valid unit differ, so another body changes one of them. -/
theorem CompilationUnit.allMethods_withBody_of_mem {u : CompilationUnit}
    (hu : u.validate = .ok u) {m : Method} (hm : m ∈ u.allMethods) (body : Option Block) :
    ∃ before after, u.allMethods = before ++ m :: after ∧
      (u.withBody m.id body).allMethods = before ++ { m with body } :: after := by
  obtain ⟨before, after, hsplit⟩ := List.append_of_mem hm
  refine ⟨before, after, hsplit, ?_⟩
  have hnodup := nodup_methods hu
  rw [hsplit, List.map_append, List.map_cons, List.nodup_middle, List.nodup_cons,
    List.mem_append, not_or] at hnodup
  have hother : ∀ ms : List Method, m.id ∉ ms.map Method.id →
      ms.map (Method.withBody m.id body) = ms := by
    intro ms hnew
    refine (List.map_congr_left fun n hn => ?_).trans (List.map_id ms)
    have hne : n.id ≠ m.id := fun heq => hnew (heq ▸ List.mem_map_of_mem hn)
    rw [Method.withBody, if_neg hne, id]
  rw [allMethods_withBody, hsplit, List.map_append, List.map_cons, hother before hnodup.1.1,
    hother after hnodup.1.2, Method.withBody, if_pos rfl]

/-- The headers are the same with another body, so all methods are walked with the same tables. -/
theorem Config.segment_withBody (config : Config) (u : CompilationUnit) (id : DeclId)
    (body : Option Block) : config.segment (u.withBody id body) = config.segment u := by
  funext n
  rw [segment_eq, segment_eq, checkMethod_congr (u.header_withBody id body) n]

/-- **Another body for a method changes the findings in that method only.** -/
theorem Config.found_withBody (config : Config) {u : CompilationUnit} (hu : u.validate = .ok u)
    {m : Method} (hm : m ∈ u.allMethods) (body : Option Block) :
    ∃ before after, u.allMethods = before ++ m :: after ∧
      config.found (checkLog config.names u) =
        config.found (Model.log config.names u) ++ before.flatMap (config.segment u)
          ++ config.segment u m ++ after.flatMap (config.segment u) ∧
      config.found (checkLog config.names (u.withBody m.id body)) =
        config.found (Model.log config.names u) ++ before.flatMap (config.segment u)
          ++ config.segment (u.withBody m.id body) { m with body }
          ++ after.flatMap (config.segment u) := by
  obtain ⟨before, after, hsplit, hsplit'⟩ :=
    CompilationUnit.allMethods_withBody_of_mem hu hm body
  refine ⟨before, after, hsplit, ?_, ?_⟩
  · rw [found_checkLog, hsplit, List.flatMap_append, List.flatMap_cons]
    simp only [List.append_assoc]
  · rw [found_checkLog, hsplit', Model.log_congr (u.header_withBody m.id body), segment_withBody,
      List.flatMap_append, List.flatMap_cons]
    simp only [List.append_assoc]

/-! ## Rearranged units -/

/-- The types differ in the order of their methods only. -/
structure TypeDecl.Rearranged (t t' : TypeDecl) : Prop where
  rest : { t with methods := [] } = { t' with methods := [] }
  methods : t.methods.Perm t'.methods

/-- The units differ in the order of their types, of the methods of types and of the other methods,
and the first type of each name is the same. -/
structure CompilationUnit.Rearranged (u u' : CompilationUnit) : Prop where
  name : u.name = u'.name
  types : ∃ ts, List.Forall₂ TypeDecl.Rearranged u.types ts ∧ ts.Perm u'.types
  methods : u.methods.Perm u'.methods
  first : ∀ name, (u.types.find? fun t => t.name = name).map TypeDecl.id =
    (u'.types.find? fun t => t.name = name).map TypeDecl.id

/-- What does not depend on the methods of a type is the same. -/
theorem TypeDecl.Rearranged.eq {α : Type} {f : TypeDecl → α} {t t' : TypeDecl}
    (h : t.Rearranged t') (hf : ∀ t, f { t with methods := [] } = f t) : f t = f t' := by
  rw [← hf t, h.rest, hf t']

namespace CompilationUnit.Rearranged

variable {names : Names} {u u' : CompilationUnit} (h : u.Rearranged u')
include h

/-- What depends on a type up to its order is the same for the types of both units, up to its
order. -/
theorem flatMap_types {α : Type} {f : TypeDecl → List α}
    (hf : ∀ t t' : TypeDecl, t.Rearranged t' → (f t).Perm (f t')) :
    (u.types.flatMap f).Perm (u'.types.flatMap f) := by
  -- first type by type, then in the other order
  obtain ⟨ts, hts, hperm⟩ := h.types
  refine List.Perm.trans ?_ (hperm.flatMap_right f)
  clear hperm
  generalize u.types = types at hts
  induction hts with
  | nil => exact .nil
  | cons ht _ ih => exact (hf _ _ ht).append ih

/-- What does not depend on the order inside a type occurs as often in a rearranged unit. -/
theorem map_types {α : Type} {f : TypeDecl → α}
    (hf : ∀ t t' : TypeDecl, t.Rearranged t' → f t = f t') :
    (u.types.map f).Perm (u'.types.map f) := by
  rw [← List.flatMap_pure_eq_map, ← List.flatMap_pure_eq_map]
  exact h.flatMap_types fun t t' ht => .of_eq (congrArg List.singleton (hf t t' ht))

/-- A rearranged unit has the same methods, in another order. -/
theorem allMethods : u.allMethods.Perm u'.allMethods :=
  (h.flatMap_types fun _ _ ht => ht.methods).append h.methods

theorem headers : (Model.headers u).Perm (Model.headers u') := by
  refine ((h.map_types fun t t' ht => ?_).append (h.flatMap_types fun t t' ht => ?_)).append
    (h.methods.flatMap_right _)
  · exact ht.eq fun _ => rfl
  · have hcomponents : t.components = t'.components := ht.eq fun _ => rfl
    rw [hcomponents]
    exact (ht.methods.flatMap_right _).append_left _

end CompilationUnit.Rearranged

/-! ## The tables of rearranged units -/

namespace Model

def bareEntry (names : Names) (t : TypeDecl) : DeclId × TypeEntry :=
  (t.id, TypeEntry.bare { decl := t, level := annotatedLevel names t.annots })

theorem types_bare (names : Names) (u : CompilationUnit) :
    ((ofUnit names u).types.map fun _ => TypeEntry.bare) =
      .ofList (u.types.map (bareEntry names)) := by
  show Table.map _ (.ofList _) = _
  rw [Table.map_ofList, List.map_map]
  rfl

/-- The level of a type by name is that of the first type of that name. -/
theorem typeLevel_eq (names : Names) (u : CompilationUnit) (name : String) :
    (ofUnit names u).typeLevel name =
      (((u.types.find? fun t => t.name = name).map TypeDecl.id).map
        (ofUnit names u).variantLevel).getD .inherit := by
  have hfind : ((ofUnit names u).typeNames.find? fun t => t.1 = name) =
      (u.types.find? fun t => t.name = name).map fun t => (t.name, t.id) :=
    List.find?_map ..
  rw [typeLevel, typeNamed?, hfind]
  cases u.types.find? fun t => t.name = name with
  | none => rfl
  | some t => rfl

variable {names : Names} {u u' : CompilationUnit} (hu : u.validate = .ok u) (h : u.Rearranged u')
include hu h

/-- The table of types answers alike, as far as levels go, in a rearranged unit. -/
theorem types_rearranged :
    ((ofUnit names u).types.map fun _ => TypeEntry.bare).get? =
        ((ofUnit names u').types.map fun _ => TypeEntry.bare).get? ∧
      (ofUnit names u).types.size = (ofUnit names u').types.size := by
  have hnodup : ((u.types.map (bareEntry names)).map Prod.fst).Nodup := by
    rw [List.map_map]
    exact CompilationUnit.nodup_types hu
  have hperm : (u.types.map (bareEntry names)).Perm (u'.types.map (bareEntry names)) :=
    h.map_types fun t t' ht => ht.eq fun _ => rfl
  have hsize : ∀ v : CompilationUnit, (ofUnit names v).types.size =
      (Table.ofList (v.types.map (bareEntry names))).size := by
    intro v
    rw [← types_bare, Table.size_map]
  rw [types_bare, types_bare, hsize, hsize]
  exact Table.ofList_perm hnodup hperm

theorem type?_rearranged (id : DeclId) : (ofUnit names u).AlikeAt (ofUnit names u') (.type id) := by
  have hget : ((ofUnit names u).types.map fun _ => TypeEntry.bare).get? id =
      ((ofUnit names u').types.map fun _ => TypeEntry.bare).get? id :=
    congrFun (types_rearranged hu h).1 id
  rwa [Table.get?_map, Table.get?_map] at hget

theorem components_rearranged :
    (ofUnit names u).component? = (ofUnit names u').component? ∧
      (ofUnit names u).components.size = (ofUnit names u').components.size := by
  have hids : ∀ t : TypeDecl,
      (componentEntries names t).map Prod.fst = t.components.map Component.id := by
    intro t
    simpa [Function.comp_def] using congrArg (List.map Prod.fst) (decls_componentEntries names t)
  have hnodup : ((u.types.flatMap (componentEntries names)).map Prod.fst).Nodup := by
    simp only [List.map_flatMap, hids]
    rw [← List.map_flatMap]
    exact CompilationUnit.nodup_components hu
  have hperm : (u.types.flatMap (componentEntries names)).Perm
      (u'.types.flatMap (componentEntries names)) :=
    h.flatMap_types fun t t' ht => .of_eq (ht.eq fun _ => rfl)
  exact Table.ofList_perm hnodup hperm

theorem methods_rearranged :
    (ofUnit names u).method? = (ofUnit names u').method? ∧
      (ofUnit names u).methods.size = (ofUnit names u').methods.size := by
  have hnodup : ((u.types.flatMap (fun t => t.methods.map (methodEntry names (some t.id)))
      ++ u.methods.map (methodEntry names none)).map Prod.fst).Nodup := by
    simpa [CompilationUnit.allMethods, List.map_flatMap, methodEntry, Function.comp_def] using
      CompilationUnit.nodup_methods hu
  have hperm : (u.types.flatMap (fun t => t.methods.map (methodEntry names (some t.id)))
      ++ u.methods.map (methodEntry names none)).Perm
      (u'.types.flatMap (fun t => t.methods.map (methodEntry names (some t.id)))
        ++ u'.methods.map (methodEntry names none)) := by
    refine (h.flatMap_types fun t t' ht => ?_).append (h.methods.map _)
    have hid : t.id = t'.id := ht.eq fun _ => rfl
    rw [hid]
    exact ht.methods.map _
  exact Table.ofList_perm hnodup hperm

/-- The levels that type names stand for do not depend on the order of types. -/
theorem typeLevel_rearranged : (ofUnit names u).typeLevel = (ofUnit names u').typeLevel := by
  -- the first type of a name is the same in both, so it is enough that levels by id are
  have hlevel : (ofUnit names u).variantLevel = (ofUnit names u').variantLevel := by
    funext id
    exact (type?_rearranged hu h id).variantLevel
  funext name
  rw [typeLevel_eq, typeLevel_eq, h.first, hlevel]

theorem params_rearranged : (ofUnit names u).param? = (ofUnit names u').param? := by
  have hentry : paramEntry names (ofTypes names u.types) =
      paramEntry names (ofTypes names u'.types) := by
    have hlevel : (ofTypes names u.types).typeLevel = (ofTypes names u'.types).typeLevel :=
      typeLevel_rearranged hu h
    funext p
    unfold paramEntry declaredBinding
    rw [hlevel]
  have hnodup : ((u.allMethods.flatMap fun m =>
      m.params.map (paramEntry names (ofTypes names u.types))).map Prod.fst).Nodup := by
    simpa [List.map_flatMap, paramEntry, Function.comp_def] using
      CompilationUnit.nodup_params hu
  have hperm : (u.allMethods.flatMap fun m =>
      m.params.map (paramEntry names (ofTypes names u.types))).Perm
      (u'.allMethods.flatMap fun m =>
        m.params.map (paramEntry names (ofTypes names u'.types))) := by
    rw [hentry]
    exact h.allMethods.flatMap_right _
  exact (Table.ofList_perm hnodup hperm).1

/-- All lookups are answered alike in a rearranged unit. -/
theorem alikeAt_rearranged (l : Lookup) : (ofUnit names u).AlikeAt (ofUnit names u') l := by
  have hcomponent : (ofUnit names u).component? = (ofUnit names u').component? :=
    (components_rearranged hu h).1
  have hmethod : (ofUnit names u).method? = (ofUnit names u').method? :=
    (methods_rearranged hu h).1
  cases l with
  | type id => exact type?_rearranged hu h id
  | component id => exact congrFun hcomponent id
  | callee id => exact ⟨congrFun hcomponent id, congrArg (Option.map _) (congrFun hmethod id)⟩
  | method id => exact congrArg (Option.map _) (congrFun hmethod id)
  | param id => exact congrFun (params_rearranged hu h) id

/-- Setting up the tables logs the same events, in another order. -/
theorem log_rearranged : (log names u).Perm (log names u') := by
  have htypes : (ofUnit names u).types.size = (ofUnit names u').types.size :=
    (types_rearranged hu h).2
  have hcomponents : (ofUnit names u).components.size = (ofUnit names u').components.size :=
    (components_rearranged hu h).2
  have hmethods : (ofUnit names u).methods.size = (ofUnit names u').methods.size :=
    (methods_rearranged hu h).2
  simp only [log, h.name, htypes, hcomponents, hmethods]
  exact (h.headers.flatMap_right _).append_right _

end Model

section Units

variable {u u' : CompilationUnit} (hu : u.validate = .ok u) (h : u.Rearranged u')
include hu h

/-- A method logs the same in a rearranged unit. -/
theorem checkMethod_rearranged (names : Names) :
    checkMethod names (.ofUnit names u) = checkMethod names (.ofUnit names u') := by
  funext m
  have hctx : (Context.ofMethod names (.ofUnit names u) m).AgreesOn (fun _ => True)
      (.ofMethod names (.ofUnit names u') m) :=
    Context.ofMethod_agreesOn names (Model.typeLevel_rearranged hu h)
      (fun l _ => Model.alikeAt_rearranged hu h l) (fun _ _ _ _ => trivial) trivial
  exact checkMethod_of_agreesOn hctx (fun _ _ => trivial) fun _ _ _ _ => trivial

/-- **Rearranging a valid unit rearranges what its analysis logs.** -/
theorem checkLog_rearranged (names : Names) : (checkLog names u).Perm (checkLog names u') := by
  rw [checkLog_eq, checkLog_eq, checkMethod_rearranged hu h]
  exact (Model.log_rearranged hu h).append (h.allMethods.flatMap_right _)

end Units

/-- **Methods are checked independently.** The report of a valid unit has, in source order, what its
declarations are found to have followed by what a new checker finds in each method. Another body for
a method changes what is found in that method only, and rearranging the unit only rearranges the
report. -/
theorem methods_independent (config : Config) {u : CompilationUnit} (hu : u.validate = .ok u) :
    (check config u).diagnostics =
      Findings.sortDiagnostics (config.found (checkLog config.names u)) ∧
    config.found (checkLog config.names u) =
      config.found (Model.log config.names u) ++ u.allMethods.flatMap (config.segment u) ∧
    (∀ m ∈ u.allMethods, ∀ body, ∃ before after, u.allMethods = before ++ m :: after ∧
      config.found (checkLog config.names u) =
        config.found (Model.log config.names u) ++ before.flatMap (config.segment u)
          ++ config.segment u m ++ after.flatMap (config.segment u) ∧
      config.found (checkLog config.names (u.withBody m.id body)) =
        config.found (Model.log config.names u) ++ before.flatMap (config.segment u)
          ++ config.segment (u.withBody m.id body) { m with body }
          ++ after.flatMap (config.segment u)) ∧
    ∀ u', u.Rearranged u' →
      (check config u).diagnostics.Perm (check config u').diagnostics ∧
        (check config u).unreliable = (check config u').unreliable :=
  ⟨by rw [check_diagnostics, config.found_eq], config.found_checkLog u,
    fun _ hm body => config.found_withBody hu hm body,
    fun _ h => check_of_perm (checkLog_rearranged hu h config.names)⟩

/-! ## A unit and a rearrangement of it -/

namespace Swapping

/-- `@Closed Leaf m(@Bound Leaf x) { return x; }` with the given id; the parameter has the next. -/
def method (id : UInt32) : Method :=
  let marker (name : String) : Annot := { name, span := .spot 1 }
  { id := ⟨id⟩
    name := "m"
    isStatic := true
    annots := [marker "Closed"]
    returnType := some "Leaf"
    params := [
      { id := ⟨id + 1⟩, name := "x", type := "Leaf", annots := [marker "Bound"], isVarargs := false,
        span := .spot 1 }]
    body := some (.mk [.ret (some (.var ⟨id + 1⟩ (.spot 3))) (.spot 2)] (.spot 2))
    span := .spot 1 }

def type (id : UInt32) (name : String) (methods : List Method) : TypeDecl :=
  { id := ⟨id⟩, name, annots := [], shape := .singleton, supertypes := [], methods,
    span := .spot 0 }

/-- Two types of one name, the first with two methods, and a third type. -/
def unit : CompilationUnit :=
  { name := "swapping"
    types := [type 0 "Leaf" [method 10, method 20], type 1 "Leaf" [], type 2 "Other" []]
    methods := [method 30, method 40] }

/-- The third type comes first, and methods are swapped. -/
def swapped : CompilationUnit :=
  { name := "swapping"
    types := [type 2 "Other" [], type 0 "Leaf" [method 20, method 10], type 1 "Leaf" []]
    methods := [method 40, method 30] }

theorem rearranged : unit.Rearranged swapped where
  name := rfl
  types := by
    refine ⟨[type 0 "Leaf" [method 20, method 10], type 1 "Leaf" [], type 2 "Other" []], ?_, ?_⟩
    · exact .cons ⟨rfl, .swap ..⟩ (.cons ⟨rfl, .nil⟩ (.cons ⟨rfl, .nil⟩ .nil))
    · exact List.perm_append_singleton _ [_, _]
  methods := .swap ..
  first name := by
    simp only [unit, swapped, type, List.find?_cons, List.find?_nil]
    by_cases hleaf : "Leaf" = name
    · subst hleaf
      rfl
    · by_cases hother : "Other" = name <;> simp [hleaf, hother]

end Swapping

/-- Four methods are found to return what they must not; without a body one of them is not, and the
others still are. -/
theorem methods_independent_swapping :
    Swapping.unit.validate = .ok Swapping.unit ∧
      ({} : Config).segment Swapping.unit (Swapping.method 20) =
        [.levelMismatch (.spot 3) .closed .bound] ∧
      (∃ before after, Swapping.unit.allMethods = before ++ Swapping.method 20 :: after ∧
        ({} : Config).found (checkLog ({} : Config).names (Swapping.unit.withBody ⟨20⟩ none)) =
          ({} : Config).found (Model.log ({} : Config).names Swapping.unit)
            ++ before.flatMap (({} : Config).segment Swapping.unit)
            ++ after.flatMap (({} : Config).segment Swapping.unit)) ∧
      (check {} Swapping.unit).diagnostics.Perm (check {} Swapping.swapped).diagnostics ∧
      (check {} Swapping.unit).unreliable = (check {} Swapping.swapped).unreliable := by
  obtain ⟨-, -, hbody, hswapped⟩ := methods_independent {} (u := Swapping.unit) rfl
  have hmem : Swapping.method 20 ∈ Swapping.unit.allMethods :=
    List.mem_cons_of_mem _ List.mem_cons_self
  obtain ⟨before, after, hsplit, -, hfound⟩ := hbody _ hmem none
  refine ⟨rfl, by decide, ⟨before, after, hsplit, hfound.trans ?_⟩, hswapped _ Swapping.rearranged⟩
  have hnone : ∀ (u : CompilationUnit) (m : Method),
      ({} : Config).segment u { m with body := none } = [] := fun _ _ => rfl
  rw [hnone, List.append_nil]

end Closedness
