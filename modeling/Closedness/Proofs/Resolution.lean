import Closedness.Proofs.Nodes
import Closedness.Proofs.Shape
import Closedness.Proofs.Validation
import Mathlib.Data.List.Nodup

/-!
# Validation accepts exactly the well-resolved units

A unit is `Distinct` if no two declarations anywhere in its source share an id, and `Resolved` if
everything named anywhere in it is a declaration of a kind that fits (`Role.kinds`). Both are said
of the nodes of the source. Validation goes through two lists of its own, so it is exact because
the lists follow the nodes (`CompilationUnit.declarations_eq_collect`,
`CompilationUnit.references_perm_collect`).

A repeated id is reported before any dangling reference: for the first declaration in the source
that repeats one, together with the only declaration before it that has the id
(`Declaration.firstRepeat_eq_some`).
-/

namespace Closedness

/-- The kinds of declarations that can play a role. -/
def Role.kinds : Role → List DeclKind
  | .variable => [.variable]
  | .component => [.component]
  | .method => [.method, .component]
  | .record => [.record]
  | .singleton => [.singleton]
  | .type => [.plainType, .interface, .singleton, .record]

theorem Role.admits_iff {role : Role} {kind : DeclKind} :
    role.admits kind = true ↔ kind ∈ role.kinds := by
  cases role <;> cases kind <;> decide

/-- Some declaration has the id of the reference and a kind that fits. -/
def Reference.ResolvesIn (ds : List Declaration) (r : Reference) : Prop :=
  ∃ d ∈ ds, d.id = r.id ∧ d.kind ∈ r.role.kinds

namespace CompilationUnit

def declared (u : CompilationUnit) : List Declaration :=
  (Node.unit u).collect Node.declaration?

def named (u : CompilationUnit) : List Reference :=
  (Node.unit u).collect Node.reference?

/-- No two declarations share an id. -/
def Distinct (u : CompilationUnit) : Prop :=
  (Declaration.ids u.declared).Nodup

/-- Everything named is declared, and of a kind that fits. -/
def Resolved (u : CompilationUnit) : Prop :=
  ∀ r ∈ u.named, r.ResolvesIn u.declared

end CompilationUnit

/-! ## Repeated declarations -/

namespace Declaration

/-- Declarations with the same id are the same when no id repeats. -/
theorem eq_of_id_eq {ds : List Declaration} (hnodup : (ids ds).Nodup) {d e : Declaration}
    (hd : d ∈ ds) (he : e ∈ ds) (hid : d.id = e.id) : d = e :=
  List.inj_on_of_nodup_map hnodup hd he hid

/-- The first declaration that repeats an id comes after declarations with pairwise different ids,
one of which has the same id. -/
theorem firstRepeat_eq_some {seen ds : List Declaration} {first second : Declaration}
    (hseen : (ids seen).Nodup) (h : firstRepeat seen ds = some (first, second)) :
    ∃ before after, ds = before ++ second :: after ∧ (ids (before.reverse ++ seen)).Nodup ∧
      first ∈ before.reverse ++ seen ∧ first.id = second.id := by
  induction ds generalizing seen with
  | nil => cases h
  | cons d rest ih =>
    rw [firstRepeat] at h
    cases hfind : seen.find? fun e => e.id = d.id with
    | some earlier =>
      rw [hfind] at h
      cases h
      have hid : first.id = second.id := by simpa using List.find?_some hfind
      exact ⟨[], rest, rfl, hseen, List.mem_of_find?_eq_some hfind, hid⟩
    | none =>
      rw [hfind] at h
      have hnew : d.id ∉ ids seen := by
        intro hmem
        obtain ⟨e, he, hid⟩ := List.mem_map.1 hmem
        have hne := List.find?_eq_none.1 hfind e he
        exact hne (decide_eq_true hid)
      -- what has been passed stays free of repetitions
      have hcons : (ids (d :: seen)).Nodup := List.nodup_cons.2 ⟨hnew, hseen⟩
      obtain ⟨before, after, hds, hnodup, hmem, hid⟩ := ih hcons h
      refine ⟨d :: before, after, by rw [hds, List.cons_append], ?_, ?_, hid⟩
      · rwa [List.reverse_cons, List.append_assoc]
      · rwa [List.reverse_cons, List.append_assoc]

end Declaration

/-! ## References that resolve -/

/-- Where no id is declared twice it does not matter which declaration is found. -/
theorem Reference.resolves_iff {ds : List Declaration} (hnodup : (Declaration.ids ds).Nodup)
    (r : Reference) : r.resolves ds = true ↔ r.ResolvesIn ds := by
  unfold resolves
  cases hfind : ds.find? fun d => d.id = r.id with
  | some d =>
    have hd : d ∈ ds := List.mem_of_find?_eq_some hfind
    have hid : d.id = r.id := by simpa using List.find?_some hfind
    rw [Role.admits_iff]
    constructor
    · intro hkind
      exact ⟨d, hd, hid, hkind⟩
    · rintro ⟨e, he, heid, hkind⟩
      rwa [Declaration.eq_of_id_eq hnodup hd he (hid.trans heid.symm)]
  | none =>
    have hnone := List.find?_eq_none.1 hfind
    refine ⟨(fun h => nomatch h), ?_⟩
    rintro ⟨e, he, heid, -⟩
    exact absurd (decide_eq_true heid) (hnone e he)

namespace CompilationUnit

variable {u : CompilationUnit}

theorem declared_eq (u : CompilationUnit) : u.declared = u.declarations :=
  u.declarations_eq_collect.symm

theorem mem_named {r : Reference} : r ∈ u.named ↔ r ∈ u.references :=
  u.references_perm_collect.mem_iff.symm

/-- Ids are distinct just when the search for a repeated one fails. -/
theorem distinct_iff_firstRepeat :
    u.Distinct ↔ Declaration.firstRepeat [] u.declarations = none := by
  rw [Declaration.firstRepeat_eq_none_iff, Distinct, declared_eq]
  simp

/-- In a unit with distinct ids, all references that validation looks up resolve just when
everything named anywhere does. -/
theorem resolved_iff_references (h : u.Distinct) :
    u.Resolved ↔ ∀ r ∈ u.references, r.resolves u.declarations = true := by
  rw [Distinct, declared_eq] at h
  simp only [Resolved, declared_eq, mem_named, Reference.resolves_iff h]

/-- If ids repeat, validation reports the first declaration that repeats one, with the one it
repeats. -/
theorem validate_of_not_distinct (h : ¬ u.Distinct) :
    ∃ before first between second after,
      u.declared = before ++ first :: between ++ second :: after ∧
      (Declaration.ids (before ++ first :: between)).Nodup ∧ first.id = second.id ∧
      u.validate = .error (.duplicate second.id first.span second.span) := by
  cases hrepeat : Declaration.firstRepeat [] u.declarations with
  | none => exact absurd (distinct_iff_firstRepeat.2 hrepeat) h
  | some pair =>
    obtain ⟨first, second⟩ := pair
    have hempty : (Declaration.ids []).Nodup := List.nodup_nil
    obtain ⟨prior, after, hds, hnodup, hmem, hid⟩ :=
      Declaration.firstRepeat_eq_some hempty hrepeat
    rw [List.append_nil, List.mem_reverse] at hmem
    obtain ⟨before, between, rfl⟩ := List.append_of_mem hmem
    refine ⟨before, first, between, second, after, ?_, ?_, hid, ?_⟩
    · rw [declared_eq, hds]
    · rw [List.append_nil, Declaration.ids, List.map_reverse, List.nodup_reverse] at hnodup
      exact hnodup
    · simp only [validate, defect?, hrepeat]

/-- A unit with distinct ids is refused, if at all, for something named in it that does not
resolve. -/
theorem validate_of_not_resolved (h : u.Distinct) (hr : ¬ u.Resolved) :
    ∃ r ∈ u.named, ¬ r.ResolvesIn u.declared ∧
      u.validate = .error (.unknown r.id r.role r.span) := by
  cases hfind : u.references.find? fun r => !r.resolves u.declarations with
  | none =>
    refine absurd ((resolved_iff_references h).2 fun r hmem => ?_) hr
    simpa using List.find?_eq_none.1 hfind r hmem
  | some r =>
    have hdangles : ¬ r.resolves u.declarations = true := by simpa using List.find?_some hfind
    refine ⟨r, mem_named.2 (List.mem_of_find?_eq_some hfind), ?_, ?_⟩
    · rw [Distinct, declared_eq] at h
      rwa [declared_eq, ← Reference.resolves_iff h]
    · simp only [validate, defect?, distinct_iff_firstRepeat.1 h, hfind, Option.map_some]

/-- In a valid unit ids are distinct. -/
theorem distinct_of_validate (hu : u.validate = .ok u) : u.Distinct := by
  rw [Distinct, declared_eq]
  exact nodup_of_validate hu

/-- Nothing named in a valid unit dangles. -/
theorem resolved_of_validate (hu : u.validate = .ok u) : u.Resolved := by
  by_contra hresolved
  obtain ⟨r, -, -, herror⟩ := validate_of_not_resolved (distinct_of_validate hu) hresolved
  rw [hu] at herror
  cases herror

end CompilationUnit

/-- **Validation accepts exactly the units whose ids are distinct and whose references resolve.** A
repeated id is reported first, for the first declaration in the source that repeats one and with the
place of the declaration it repeats; otherwise what is reported is something named in the unit that
does not resolve. -/
theorem validate_decides_resolution (u : CompilationUnit) :
    (u.validate = .ok u ↔ u.Distinct ∧ u.Resolved) ∧
    (¬ u.Distinct → ∃ before first between second after,
      u.declared = before ++ first :: between ++ second :: after ∧
      (Declaration.ids (before ++ first :: between)).Nodup ∧ first.id = second.id ∧
      u.validate = .error (.duplicate second.id first.span second.span)) ∧
    (u.Distinct → ¬ u.Resolved → ∃ r ∈ u.named, ¬ r.ResolvesIn u.declared ∧
      u.validate = .error (.unknown r.id r.role r.span)) := by
  refine ⟨?_, CompilationUnit.validate_of_not_distinct, CompilationUnit.validate_of_not_resolved⟩
  constructor
  · intro hok
    exact ⟨CompilationUnit.distinct_of_validate hok, CompilationUnit.resolved_of_validate hok⟩
  · rintro ⟨hdistinct, hresolved⟩
    have hall := (CompilationUnit.resolved_iff_references hdistinct).1 hresolved
    have hfind : (u.references.find? fun r => !r.resolves u.declarations) = none := by
      refine List.find?_eq_none.2 fun r hr => ?_
      simp [hall r hr]
    simp only [CompilationUnit.validate, CompilationUnit.defect?,
      CompilationUnit.distinct_iff_firstRepeat.1 hdistinct, hfind, Option.map_none]

/-! ## A method that names what is not declared -/

/-- `m(Term x) { Term y = z; }`, where nothing declares `z` and the id of `y` is given. -/
def dangling (id : UInt32) : CompilationUnit :=
  let param : Param :=
    { id := ⟨1⟩, name := "x", type := "Term", annots := [], isVarargs := false, span := .spot 1 }
  let decl : LocalDecl :=
    { id := ⟨id⟩, name := "y", type := some "Term", annots := [], span := .spot 3 }
  { name := "dangling"
    types := []
    methods := [
      { id := ⟨0⟩, name := "m", isStatic := true, annots := [], returnType := none,
        params := [param],
        body := some (.mk [.declare decl (some (.var ⟨9⟩ (.spot 4))) (.spot 3)] (.spot 2)),
        span := .spot 0 }] }

/-- With the id of the parameter the local is reported, although what it is initialised with is not
declared either; with an id of its own the initialiser is. -/
theorem validate_decides_resolution_dangling :
    ¬ (dangling 1).Distinct ∧
      (∃ before first between second after,
        (dangling 1).declared = before ++ first :: between ++ second :: after ∧
        (Declaration.ids (before ++ first :: between)).Nodup ∧ first.id = second.id ∧
        (dangling 1).validate = .error (.duplicate second.id first.span second.span)) ∧
      (dangling 1).validate = .error (.duplicate ⟨1⟩ (.spot 1) (.spot 3)) ∧
      (dangling 2).Distinct ∧ ¬ (dangling 2).Resolved ∧
      (∃ r ∈ (dangling 2).named, ¬ r.ResolvesIn (dangling 2).declared ∧
        (dangling 2).validate = .error (.unknown r.id r.role r.span)) ∧
      (dangling 2).validate = .error (.unknown ⟨9⟩ .variable (.spot 4)) := by
  have hrepeat : ¬ (dangling 1).Distinct := fun h =>
    nomatch CompilationUnit.distinct_iff_firstRepeat.1 h
  have hdistinct : (dangling 2).Distinct := CompilationUnit.distinct_iff_firstRepeat.2 rfl
  have hdangles : ¬ (dangling 2).Resolved := fun h =>
    nomatch (validate_decides_resolution (dangling 2)).1.2 ⟨hdistinct, h⟩
  obtain ⟨-, hduplicate, -⟩ := validate_decides_resolution (dangling 1)
  obtain ⟨-, -, hunknown⟩ := validate_decides_resolution (dangling 2)
  exact ⟨hrepeat, hduplicate hrepeat, rfl, hdistinct, hdangles, hunknown hdistinct hdangles, rfl⟩

end Closedness
