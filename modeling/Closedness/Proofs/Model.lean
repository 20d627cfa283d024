import Closedness.Model
import Closedness.Proofs.Env
import Mathlib.Data.List.Perm.Basic

/-!
# What the tables of a unit hold

Every entry of the tables of a unit comes from a declaration of the unit, with what the annotations
of that very declaration ask for (`Model.of_type?`, `Model.of_component?`, `Model.of_method?`,
`Model.of_param?`). This needs no two ids to differ: where an id is declared twice the entry is
that of one of the two. The tables are made from headers, which are all that a unit declares but
for the variables of its bodies (`headers_append_bodies_perm`).
-/

namespace Closedness

/-- What a table made of a list holds is in the list. -/
theorem Table.mem_of_get?_ofList {α : Type} {values : List (DeclId × α)} {id : DeclId} {value : α}
    (h : (Table.ofList values).get? id = some value) : (id, value) ∈ values := by
  have hfold : ∀ (vs : List (DeclId × α)) (t : Table α),
      ∀ e ∈ (vs.foldl (fun t v => t.insert v.1 v.2) t).entries, e ∈ vs ∨ e ∈ t.entries := by
    intro vs
    induction vs with
    | nil => exact fun t e he => Or.inr he
    | cons v rest ih =>
      intro t e he
      rcases ih _ e he with he | he
      · exact Or.inl (List.mem_cons_of_mem _ he)
      · rcases Table.mem_put he with rfl | he
        · exact Or.inl List.mem_cons_self
        · exact Or.inr he
  exact (hfold values {} _ (Table.mem_of_find? h)).resolve_right fun he => nomatch he

namespace CompilationUnit

variable {u : CompilationUnit}

/-- A method of the unit is that of a type, or stands by itself. -/
theorem mem_allMethods {m : Method} :
    m ∈ u.allMethods ↔ (∃ t ∈ u.types, m ∈ t.methods) ∨ m ∈ u.methods := by
  rw [allMethods, List.mem_append, List.mem_flatMap]

theorem declaration_of_type {t : TypeDecl} (ht : t ∈ u.types) : t.declaration ∈ u.declarations :=
  List.mem_append_left _ (List.mem_flatMap.2 ⟨t, ht, List.mem_cons_self⟩)

theorem declaration_of_component {t : TypeDecl} (ht : t ∈ u.types) {c : Component}
    (hc : c ∈ t.components) : c.declaration ∈ u.declarations :=
  List.mem_append_left _ (List.mem_flatMap.2 ⟨t, ht,
    List.mem_cons_of_mem _ (List.mem_append_left _ (List.mem_map_of_mem hc))⟩)

/-- What a method declares, its unit declares. -/
theorem declarations_of_method {m : Method} (hm : m ∈ u.allMethods) {d : Declaration}
    (hd : d ∈ m.declarations) : d ∈ u.declarations := by
  rcases mem_allMethods.1 hm with ⟨t, ht, hm⟩ | hm
  · exact List.mem_append_left _ (List.mem_flatMap.2 ⟨t, ht,
      List.mem_cons_of_mem _ (List.mem_append_right _ (List.mem_flatMap.2 ⟨m, hm, hd⟩))⟩)
  · exact List.mem_append_right _ (List.mem_flatMap.2 ⟨m, hm, hd⟩)

end CompilationUnit

namespace Method

theorem declaration_mem (m : Method) : m.declaration ∈ m.declarations :=
  List.mem_cons_self

theorem declaration_of_param {m : Method} {p : Param} (hp : p ∈ m.params) :
    p.declaration ∈ m.declarations :=
  List.mem_cons_of_mem _ (List.mem_append_left _ (List.mem_map_of_mem hp))

/-- The variables of a body are declared with its method. -/
theorem declarations_of_body {m : Method} {d : Declaration}
    (hd : d ∈ Block.optionDeclarations m.body) : d ∈ m.declarations :=
  List.mem_cons_of_mem _ (List.mem_append_right _ hd)

end Method

/-! ## Headers and bodies -/

/-- The headers of a method and the variables of its body are what it declares. -/
theorem methodHeaders_append_body (m : Method) :
    Model.methodHeaders m ++ Block.optionDeclarations m.body = m.declarations := by
  simp [Model.methodHeaders, Method.declarations]

/-- What methods declare: their headers and the variables of their bodies. -/
theorem flatMap_methodHeaders_perm (ms : List Method) :
    (ms.flatMap Model.methodHeaders ++ ms.flatMap fun m => Block.optionDeclarations m.body).Perm
      (ms.flatMap Method.declarations) := by
  have h := List.flatMap_append_perm ms Model.methodHeaders fun m =>
    Block.optionDeclarations m.body
  simpa only [methodHeaders_append_body] using h

/-- The headers of the types with the variables in their methods are what the types declare. -/
theorem typeHeaders_perm (ts : List TypeDecl) :
    (ts.map TypeDecl.declaration
      ++ ts.flatMap (fun t =>
        t.components.map Component.declaration ++ t.methods.flatMap Model.methodHeaders)
      ++ (ts.flatMap TypeDecl.methods).flatMap fun m => Block.optionDeclarations m.body).Perm
      (ts.flatMap TypeDecl.declarations) := by
  rw [List.flatMap_assoc, ← List.flatMap_pure_eq_map, List.append_assoc]
  refine ((List.Perm.append_left _ (List.flatMap_append_perm ..)).trans
    (List.flatMap_append_perm ..)).trans ?_
  refine List.Perm.flatMap_left ts fun t _ => ?_
  show List.Perm (t.declaration :: (_ ++ _ ++ _)) (t.declaration :: (_ ++ _))
  rw [List.append_assoc]
  exact ((flatMap_methodHeaders_perm t.methods).append_left _).cons _

/-- The headers of a unit and the variables of its bodies are all it declares. -/
theorem headers_append_bodies_perm (u : CompilationUnit) :
    (Model.headers u ++ u.allMethods.flatMap fun m => Block.optionDeclarations m.body).Perm
      u.declarations := by
  simp only [Model.headers, CompilationUnit.allMethods, List.flatMap_append, List.append_assoc]
  refine (((List.perm_append_comm_assoc ..).append_left _).append_left _).trans ?_
  simp only [← List.append_assoc]
  rw [List.append_assoc]
  exact (typeHeaders_perm u.types).append (flatMap_methodHeaders_perm u.methods)

/-! ## Entries -/

namespace Model

variable {names : Names} {u : CompilationUnit} {id : DeclId}

/-- What the tables say of a type is that of a type in the unit. -/
theorem of_type? {t : TypeEntry} (h : (ofUnit names u).type? id = some t) :
    t.decl ∈ u.types ∧ t.level = annotatedLevel names t.decl.annots := by
  obtain ⟨decl, hdecl, heq⟩ := List.mem_map.1 (Table.mem_of_get?_ofList h)
  obtain ⟨-, rfl⟩ := Prod.mk.inj heq
  exact ⟨hdecl, rfl⟩

/-- What the tables say of a component is that of a component in the unit. -/
theorem of_component? {c : ComponentEntry} (h : (ofUnit names u).component? id = some c) :
    (∃ t ∈ u.types, c.decl ∈ t.components) ∧ c.binding = annotatedBinding names c.decl.annots := by
  obtain ⟨t, ht, hc⟩ := List.mem_flatMap.1 (Table.mem_of_get?_ofList h)
  obtain ⟨i, hi, heq⟩ := List.mem_mapIdx.1 hc
  obtain ⟨-, rfl⟩ := Prod.mk.inj heq
  exact ⟨⟨t, ht, List.getElem_mem hi⟩, rfl⟩

/-- What the tables say of a method is that of a method in the unit. -/
theorem of_method? {m : MethodEntry} (h : (ofUnit names u).method? id = some m) :
    m.decl ∈ u.allMethods ∧ m.returns = annotatedBinding names m.decl.annots := by
  rcases List.mem_append.1 (Table.mem_of_get?_ofList h) with hm | hm
  · obtain ⟨t, ht, hm⟩ := List.mem_flatMap.1 hm
    obtain ⟨decl, hdecl, heq⟩ := List.mem_map.1 hm
    obtain ⟨-, rfl⟩ := Prod.mk.inj heq
    exact ⟨CompilationUnit.mem_allMethods.2 (Or.inl ⟨t, ht, hdecl⟩), rfl⟩
  · obtain ⟨decl, hdecl, heq⟩ := List.mem_map.1 hm
    obtain ⟨-, rfl⟩ := Prod.mk.inj heq
    exact ⟨CompilationUnit.mem_allMethods.2 (Or.inr hdecl), rfl⟩

/-- A method that belongs to a type belongs to a type of the unit. -/
theorem of_owner {m : MethodEntry} {owner : DeclId} (h : (ofUnit names u).method? id = some m)
    (howner : m.owner = some owner) : ∃ t ∈ u.types, t.id = owner := by
  rcases List.mem_append.1 (Table.mem_of_get?_ofList h) with hm | hm
  · obtain ⟨t, ht, hm⟩ := List.mem_flatMap.1 hm
    obtain ⟨decl, -, heq⟩ := List.mem_map.1 hm
    obtain ⟨-, rfl⟩ := Prod.mk.inj heq
    exact ⟨t, ht, Option.some.inj howner⟩
  · obtain ⟨decl, -, heq⟩ := List.mem_map.1 hm
    obtain ⟨-, rfl⟩ := Prod.mk.inj heq
    cases howner

/-- What the tables say of a parameter is that of a parameter in the unit. -/
theorem of_param? {p : ParamEntry} (h : (ofUnit names u).param? id = some p) :
    (∃ m ∈ u.allMethods, p.decl ∈ m.params) ∧
      p.binding = (ofUnit names u).declaredBinding (names.resolve p.decl.annots).binding
        (some p.decl.type) := by
  obtain ⟨m, hm, hp⟩ := List.mem_flatMap.1 (Table.mem_of_get?_ofList h)
  obtain ⟨decl, hdecl, heq⟩ := List.mem_map.1 hp
  obtain ⟨-, rfl⟩ := Prod.mk.inj heq
  refine ⟨⟨m, hm, hdecl⟩, ?_⟩
  -- the level of a type is looked up in the table of types alone
  cases (names.resolve decl.annots).binding <;> rfl

end Model

end Closedness
