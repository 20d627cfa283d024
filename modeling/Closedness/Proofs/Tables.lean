import Closedness.Proofs.Validation

/-!
# The tables of a valid unit

A table made of a list keeps the last value entered for an id. Where all ids differ it keeps every
value, in order (`Table.entries_ofList`), and it does not matter in what order they are entered
(`Table.ofList_perm`). The ids of a valid unit all differ, so its tables hold exactly its
declarations (`Model.tabulates`), and a component is found again at its place in its record
(`Model.componentBindings_getElem?`).
-/

namespace Closedness

namespace Table

variable {α : Type} {values values' : List (DeclId × α)} {id : DeclId} {value : α}

theorem entries_insert_of_not_mem {t : Table α} (h : id ∉ t.keys) (value : α) :
    (t.insert id value).entries = t.entries ++ [(id, value)] := by
  obtain ⟨entries⟩ := t
  simp only [keys, insert] at h ⊢
  induction entries with
  | nil => rfl
  | cons e rest ih =>
    rw [List.map_cons, List.mem_cons, not_or] at h
    have hne : ¬ e.1 = id := fun heq => h.1 heq.symm
    rw [put, if_neg hne, ih h.2, List.cons_append]

/-- Where no id is entered twice the entries are the values. -/
theorem entries_ofList (h : (values.map Prod.fst).Nodup) : (ofList values).entries = values := by
  -- the values to come are entered after what the table holds, under ids that are new to it
  have hfold : ∀ (vs : List (DeclId × α)) (t : Table α), (t.keys ++ vs.map Prod.fst).Nodup →
      (vs.foldl (fun t v => t.insert v.1 v.2) t).entries = t.entries ++ vs := by
    intro vs
    induction vs with
    | nil => exact fun t _ => (List.append_nil _).symm
    | cons v rest ih =>
      intro t ht
      have hnew : v.1 ∉ t.keys := by
        intro hmem
        exact (List.nodup_append.1 ht).2.2 _ hmem _ List.mem_cons_self rfl
      rw [List.foldl_cons, ih, entries_insert_of_not_mem hnew, List.append_assoc]
      · rfl
      · rw [keys_insert_of_not_mem hnew, List.append_assoc]
        exact ht
  exact hfold values {} h

theorem keys_ofList (h : (values.map Prod.fst).Nodup) :
    (ofList values).keys = values.map Prod.fst := by
  rw [keys, entries_ofList h]

/-- A table of different keys holds the values of the list, and nothing else. -/
theorem get?_ofList_eq_some (h : (values.map Prod.fst).Nodup) :
    (ofList values).get? id = some value ↔ (id, value) ∈ values := by
  refine ⟨mem_of_get?_ofList, fun hmem => ?_⟩
  have hentry : (id, value) ∈ (ofList values).entries := by rwa [entries_ofList h]
  exact get?_of_mem (by rwa [keys_ofList h]) hentry

/-- Where no id is entered twice the order of the values does not matter. -/
theorem ofList_perm (h : (values.map Prod.fst).Nodup) (hperm : values.Perm values') :
    (ofList values).get? = (ofList values').get? ∧
      (ofList values).size = (ofList values').size := by
  have h' : (values'.map Prod.fst).Nodup := (hperm.map _).nodup_iff.1 h
  constructor
  · funext id
    refine Option.ext fun value => ?_
    rw [get?_ofList_eq_some h, get?_ofList_eq_some h', hperm.mem_iff]
  · rw [size, size, entries_ofList h, entries_ofList h', hperm.length_eq]

end Table

/-! ## The ids of headers -/

theorem methodHeaders_perm (ms : List Method) :
    (ms.map Method.declaration ++ (ms.flatMap Method.params).map Param.declaration).Perm
      (ms.flatMap Model.methodHeaders) := by
  rw [List.map_flatMap, ← List.flatMap_pure_eq_map]
  exact List.flatMap_append_perm ms _ _

/-- The declarations in headers, kind by kind. -/
theorem headers_perm (u : CompilationUnit) :
    (u.types.map TypeDecl.declaration
      ++ (u.types.flatMap TypeDecl.components).map Component.declaration
      ++ (u.allMethods.map Method.declaration
        ++ (u.allMethods.flatMap Method.params).map Param.declaration)).Perm
      (Model.headers u) := by
  have hmembers : ((u.types.flatMap TypeDecl.components).map Component.declaration
      ++ (u.types.flatMap TypeDecl.methods).flatMap Model.methodHeaders).Perm
      (u.types.flatMap fun t =>
        t.components.map Component.declaration ++ t.methods.flatMap Model.methodHeaders) := by
    rw [List.map_flatMap, List.flatMap_assoc]
    exact List.flatMap_append_perm ..
  refine ((methodHeaders_perm u.allMethods).append_left _).trans ?_
  rw [CompilationUnit.allMethods, List.flatMap_append, ← List.append_assoc, List.append_assoc _ _
    ((u.types.flatMap TypeDecl.methods).flatMap Model.methodHeaders)]
  exact (hmembers.append_left _).append_right _

namespace CompilationUnit

variable {u : CompilationUnit} (hu : u.validate = .ok u)
include hu

/-- The ids in the headers of a valid unit all differ. -/
theorem nodup_headers : (u.types.map TypeDecl.id
    ++ (u.types.flatMap TypeDecl.components).map Component.id
    ++ (u.allMethods.map Method.id
      ++ (u.allMethods.flatMap Method.params).map Param.id)).Nodup := by
  have hids : (Declaration.ids (Model.headers u)).Nodup := by
    have hall := ((headers_append_bodies_perm u).map Declaration.id).nodup_iff.2
      (nodup_of_validate hu)
    rw [List.map_append] at hall
    exact (List.nodup_append.1 hall).1
  have hkinds := ((headers_perm u).map Declaration.id).nodup_iff.2 hids
  simpa [Function.comp_def, Declaration.ids, TypeDecl.declaration, Component.declaration,
    Method.declaration, Param.declaration] using hkinds

theorem nodup_types : (u.types.map TypeDecl.id).Nodup :=
  (List.nodup_append.1 (List.nodup_append.1 (nodup_headers hu)).1).1

theorem nodup_components : ((u.types.flatMap TypeDecl.components).map Component.id).Nodup :=
  (List.nodup_append.1 (List.nodup_append.1 (nodup_headers hu)).1).2.1

theorem nodup_methods : (u.allMethods.map Method.id).Nodup :=
  (List.nodup_append.1 (List.nodup_append.1 (nodup_headers hu)).2.1).1

theorem nodup_params : ((u.allMethods.flatMap Method.params).map Param.id).Nodup :=
  (List.nodup_append.1 (List.nodup_append.1 (nodup_headers hu)).2.1).2.1

end CompilationUnit

/-! ## What the tables hold -/

/-- The tables have one entry for each type, component, method and parameter of the unit, which
holds that very declaration, and no id is in two of them. -/
structure Model.Tabulates (model : Model) (u : CompilationUnit) : Prop where
  types : model.types.entries.map (fun e => (e.1, e.2.decl)) = u.types.map fun t => (t.id, t)
  components : model.components.entries.map (fun e => (e.1, e.2.decl)) =
    (u.types.flatMap TypeDecl.components).map fun c => (c.id, c)
  methods : model.methods.entries.map (fun e => (e.1, e.2.decl)) =
    u.allMethods.map fun m => (m.id, m)
  params : model.params.entries.map (fun e => (e.1, e.2.decl)) =
    (u.allMethods.flatMap Method.params).map fun p => (p.id, p)
  nodup : (model.types.keys ++ model.components.keys
    ++ (model.methods.keys ++ model.params.keys)).Nodup

namespace Table

variable {α δ : Type} {decl : α → δ} {id : δ → DeclId} {ds : List δ}

/-- A table of declarations whose ids differ has one entry for each of them. -/
theorem entries_decls {values : List (DeclId × α)}
    (h : values.map (fun e => (e.1, decl e.2)) = ds.map fun d => (id d, d))
    (hnodup : (ds.map id).Nodup) :
    (ofList values).entries.map (fun e => (e.1, decl e.2)) = ds.map fun d => (id d, d) := by
  have hkeys : values.map Prod.fst = ds.map id := by
    simpa [Function.comp_def] using congrArg (List.map Prod.fst) h
  rw [← hkeys] at hnodup
  rw [entries_ofList hnodup, h]

theorem keys_decls {t : Table α}
    (h : t.entries.map (fun e => (e.1, decl e.2)) = ds.map fun d => (id d, d)) :
    t.keys = ds.map id := by
  simpa [keys, Function.comp_def] using congrArg (List.map Prod.fst) h

end Table

namespace Model

theorem decls_componentEntries (names : Names) (t : TypeDecl) :
    (componentEntries names t).map (fun e => (e.1, e.2.decl)) =
      t.components.map fun c => (c.id, c) := by
  refine List.ext_getElem? fun i => ?_
  simp [componentEntries, Function.comp_def]

variable {names : Names} {u : CompilationUnit}

/-- **The tables of a valid unit hold exactly its declarations.** -/
theorem tabulates (hu : u.validate = .ok u) : (ofUnit names u).Tabulates u := by
  have types : (ofUnit names u).types.entries.map (fun e => (e.1, e.2.decl)) =
      u.types.map fun t => (t.id, t) := by
    refine Table.entries_decls ?_ (CompilationUnit.nodup_types hu)
    rw [List.map_map]
    rfl
  have components : (ofUnit names u).components.entries.map (fun e => (e.1, e.2.decl)) =
      (u.types.flatMap TypeDecl.components).map fun c => (c.id, c) := by
    refine Table.entries_decls ?_ (CompilationUnit.nodup_components hu)
    simp only [List.map_flatMap, decls_componentEntries]
  have methods : (ofUnit names u).methods.entries.map (fun e => (e.1, e.2.decl)) =
      u.allMethods.map fun m => (m.id, m) := by
    refine Table.entries_decls ?_ (CompilationUnit.nodup_methods hu)
    simp only [CompilationUnit.allMethods, List.map_append, List.map_flatMap, List.map_map]
    rfl
  have params : (ofUnit names u).params.entries.map (fun e => (e.1, e.2.decl)) =
      (u.allMethods.flatMap Method.params).map fun p => (p.id, p) := by
    refine Table.entries_decls ?_ (CompilationUnit.nodup_params hu)
    simp only [List.map_flatMap, List.map_map]
    rfl
  refine ⟨types, components, methods, params, ?_⟩
  rw [Table.keys_decls types, Table.keys_decls components, Table.keys_decls methods,
    Table.keys_decls params]
  exact CompilationUnit.nodup_headers hu

section Members

variable (hu : u.validate = .ok u)
include hu

/-- A type of the unit is found under its id, at the level its markers give it. -/
theorem type?_of_mem {t : TypeDecl} (ht : t ∈ u.types) :
    (ofUnit names u).type? t.id = some { decl := t, level := annotatedLevel names t.annots } := by
  refine (Table.get?_ofList_eq_some ?_).2 (List.mem_map.2 ⟨t, ht, rfl⟩)
  rw [List.map_map]
  exact CompilationUnit.nodup_types hu

/-- A component of the unit is found under its id. -/
theorem component?_isSome {t : TypeDecl} (ht : t ∈ u.types) {c : Component}
    (hc : c ∈ t.components) : ((ofUnit names u).component? c.id).isSome := by
  refine Table.get?_isSome_iff.2 ?_
  rw [Table.keys_decls (tabulates hu).components]
  exact List.mem_map_of_mem (List.mem_flatMap.2 ⟨t, ht, hc⟩)

/-- A method of the unit is found under its id. -/
theorem method?_isSome {m : Method} (hm : m ∈ u.allMethods) :
    ((ofUnit names u).method? m.id).isSome := by
  refine Table.get?_isSome_iff.2 ?_
  rw [Table.keys_decls (tabulates hu).methods]
  exact List.mem_map_of_mem hm

/-- A parameter of the unit is found under its id. -/
theorem param?_isSome {m : Method} (hm : m ∈ u.allMethods) {p : Param} (hp : p ∈ m.params) :
    ((ofUnit names u).param? p.id).isSome := by
  refine Table.get?_isSome_iff.2 ?_
  rw [Table.keys_decls (tabulates hu).params]
  exact List.mem_map_of_mem (List.mem_flatMap.2 ⟨m, hm, hp⟩)

/-- **A component stands at its place among the components of its record.** -/
theorem componentBindings_getElem? {id : DeclId} {c : ComponentEntry}
    (h : (ofUnit names u).component? id = some c) :
    ((ofUnit names u).componentBindings c.owner)[c.index]? = some (id, c.binding) := by
  obtain ⟨t, ht, hc⟩ := List.mem_flatMap.1 (Table.mem_of_get?_ofList h)
  obtain ⟨i, hi, hentry⟩ := List.mem_mapIdx.1 hc
  obtain ⟨rfl, rfl⟩ := Prod.mk.inj hentry
  have hbinding : (ofUnit names u).componentBinding t.components[i].id =
      annotatedBinding names t.components[i].annots := by
    rw [componentBinding, h]
  rw [componentBindings, type?_of_mem hu ht, List.getElem?_map, List.getElem?_eq_getElem hi,
    Option.map_some, hbinding]

end Members

end Model

end Closedness
