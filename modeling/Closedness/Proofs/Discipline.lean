import Closedness.Check
import Closedness.Proofs.Env
import Closedness.Proofs.Steps

/-!
# Disciplines: what a walk never leaves

A `Discipline` singles out bindings, levels and findings, and says that the elementary operations
stay inside: what is read through an allowed level has an allowed level, two paths that join give
one, and judging an allowed level against an allowed requirement finds only what is allowed.
Whatever the analysis of a body computes then stays inside as well, as long as the declarations it
meets do (`exec_keeps`): no other property of the program is needed, so the result holds of units
that are not well resolved, too.

Besides, every variable has a settled level and is pinned, if at all, at a level that says
something (`Discipline.State`). `Walk.Keeps` is the statement about one walk; it is closed under
all the ways in which walks are put together.
-/

namespace Closedness

/-- A level that a variable may hold: neither that of null nor one that waits for its receiver. -/
def ValueLevel.Settled : ValueLevel → Prop
  | .level _ | .unchecked => True
  | .null | .inherited _ => False

/-- Bindings, levels and findings that the elementary operations do not lead out of. -/
structure Discipline where
  /-- What declarations may ask for. -/
  binding : Binding → Prop
  /-- The levels that values may have. -/
  level : ValueLevel → Prop
  /-- What may be found. -/
  finding : Diagnostic → Prop
  inherits : binding (.level .inherit)
  null : level .null
  ofLevel : ∀ {l}, binding (.level l) → level (.level l)
  unchecked : binding .noInherit → level .unchecked
  meet : ∀ {a b}, level a → level b → level (a.meet b)
  inheritedFrom : ∀ {l}, level l → level l.inheritedFrom
  matched : ∀ {l}, level l → level l.matched
  conflict : ∀ span winner loser, finding (.annotationConflict span winner loser)
  judged : ∀ {r l site span d}, binding (.level r) → r ≠ .inherit → level l →
    (judge r l site).diagnostic? r span = some d → finding d
  redundant : ∀ {r} span, binding (.level r) → r ≠ .inherit → finding (.redundantMarker span r)
  narrowing : ∀ {r l actual} span, binding (.level r) → r ≠ .inherit → level l →
    l.resolved? = some actual → actual.strength < r.strength →
    finding (.caseArmNarrowing span r actual)

namespace Discipline

/-- The states that variables may be in. -/
structure State (D : Discipline) (s : VarState) : Prop where
  level : D.level s.level
  settled : s.level.Settled
  pinned : ∀ {p}, s.pinned = some p → p ≠ .inherit ∧ D.binding (.level p)
  pinnedAt : s.pinnedAt.isSome → s.pinned.isSome

/-- The markers of the declarations are allowed. -/
def Allows (D : Discipline) (names : Names) (ds : List Declaration) : Prop :=
  ∀ d ∈ ds, ∀ b, (names.resolve d.annots).binding = some b → D.binding b

/-- The markers of the declarations are allowed as far as they are heeded: a type that asks for
nothing to be inferred is taken to inherit. -/
def Admits (D : Discipline) (names : Names) (ds : List Declaration) : Prop :=
  ∀ d ∈ ds, ∀ b, (names.resolve d.annots).binding = some b →
    D.binding b ∨ d.kind.isType = true ∧ b = .noInherit

/-- What the tables say about declarations is allowed, and so is the object whose method runs. -/
structure Within (D : Discipline) (ctx : Context) : Prop where
  type : ∀ {id t}, ctx.model.type? id = some t → D.binding (.level t.level)
  component : ∀ {id c}, ctx.model.component? id = some c → D.binding c.binding
  method : ∀ {id m}, ctx.model.method? id = some m → D.binding m.returns
  param : ∀ {id p}, ctx.model.param? id = some p → D.binding p.binding
  self : ∀ {l}, ctx.self = some l → D.level l
  returns : ∀ {r}, ctx.returns = some r → r ≠ .inherit ∧ D.binding (.level r)

variable {D : Discipline}

theorem Within.withOptions {ctx : Context} (h : D.Within ctx) (options : Options) :
    D.Within { ctx with options } :=
  ⟨h.type, h.component, h.method, h.param, h.self, h.returns⟩

theorem allows_append {names : Names} {a b : List Declaration} :
    D.Allows names (a ++ b) ↔ D.Allows names a ∧ D.Allows names b := by
  simp [Allows, or_imp, forall_and]

theorem allows_cons {names : Names} {d : Declaration} {ds : List Declaration} :
    D.Allows names (d :: ds) ↔
      (∀ b, (names.resolve d.annots).binding = some b → D.binding b) ∧ D.Allows names ds := by
  simp [Allows]

/-- Markers that are allowed one by one are allowed together. -/
theorem Allows.admits {names : Names} {ds : List Declaration} (h : D.Allows names ds) :
    D.Admits names ds :=
  fun d hd b hb => Or.inl (h d hd b hb)

/-- Only types may ask for what is not allowed. -/
theorem Admits.binding {names : Names} {ds : List Declaration} (h : D.Admits names ds)
    {d : Declaration} (hd : d ∈ ds) (hkind : d.kind.isType = false) {b : Binding}
    (hb : (names.resolve d.annots).binding = some b) : D.binding b := by
  obtain hallowed | ⟨htype, -⟩ := h d hd b hb
  · exact hallowed
  · rw [hkind] at htype
    cases htype

/-- A level that a binding makes explicit is not `inherit`. -/
theorem explicit?_eq_some {b : Binding} {l : Level} (h : b.explicit? = some l) :
    b = .level l ∧ l ≠ .inherit := by
  rcases b with ⟨_ | _ | _⟩ | _ <;> cases h <;> exact ⟨rfl, by decide⟩

theorem inherit_level (D : Discipline) : D.level .inherit :=
  D.ofLevel D.inherits

theorem stored_level {l : ValueLevel} (h : D.level l) : D.level l.stored := by
  cases l with
  | null => exact D.inherit_level
  | inherited r => exact D.inherit_level
  | unchecked => exact h
  | level l => exact h

/-- A member that asks for something allowed, read through an allowed receiver, has an allowed
level. -/
theorem memberLevel_level {b : Binding} (hb : D.binding b) {receiver : Option ValueLevel}
    (hr : ∀ l, receiver = some l → D.level l) : D.level (Model.memberLevel b receiver) := by
  match b, receiver with
  | .noInherit, _ => exact D.unchecked hb
  | .level .inherit, some l => exact D.inheritedFrom (hr l rfl)
  | .level .inherit, none => exact D.inherit_level
  | .level .bound, _ => exact D.ofLevel hb
  | .level .closed, _ => exact D.ofLevel hb

/-! ## What the tables give -/

namespace Within

variable {ctx : Context}

theorem selfLevel (h : D.Within ctx) : D.level ctx.selfLevel := by
  unfold Context.selfLevel
  cases hs : ctx.self with
  | none => exact D.inherit_level
  | some l => exact h.self hs

theorem variantLevel (h : D.Within ctx) (id : DeclId) :
    D.binding (.level (ctx.model.variantLevel id)) := by
  unfold Model.variantLevel
  cases ht : ctx.model.type? id with
  | none => exact D.inherits
  | some t => exact h.type ht

theorem typeLevel (h : D.Within ctx) (name : String) :
    D.binding (.level (ctx.model.typeLevel name)) := by
  unfold Model.typeLevel
  cases ht : ctx.model.typeNamed? name with
  | none => exact D.inherits
  | some t =>
    obtain ⟨entry, -, ht⟩ := Option.bind_eq_some_iff.1 ht
    exact h.type ht

theorem explicitTypeLevel? (h : D.Within ctx) {name : Option String} {l : Level}
    (hl : ctx.model.explicitTypeLevel? name = some l) : l ≠ .inherit ∧ D.binding (.level l) := by
  obtain ⟨hl, hexplicit⟩ := Option.filter_eq_some_iff.1 hl
  obtain ⟨n, -, rfl⟩ := Option.map_eq_some_iff.1 hl
  exact ⟨of_decide_eq_true hexplicit, h.typeLevel n⟩

theorem componentBinding (h : D.Within ctx) (id : DeclId) :
    D.binding (ctx.model.componentBinding id) := by
  unfold Model.componentBinding
  cases hc : ctx.model.component? id with
  | none => exact D.inherits
  | some c => exact h.component hc

theorem paramBinding (h : D.Within ctx) (id : DeclId) :
    D.binding (ctx.model.paramBinding id) := by
  unfold Model.paramBinding
  cases hp : ctx.model.param? id with
  | none => exact D.inherits
  | some p => exact h.param hp

theorem componentBindings (h : D.Within ctx) {variant : DeclId} {c : DeclId × Binding}
    (hc : c ∈ ctx.model.componentBindings variant) : D.binding c.2 := by
  unfold Model.componentBindings at hc
  split at hc
  · obtain ⟨decl, -, rfl⟩ := List.mem_map.1 hc
    exact h.componentBinding decl.id
  · cases hc

/-- A marker and the type behind it ask for something allowed when each does. -/
theorem declaredBinding (h : D.Within ctx) {own : Option Binding} {type : Option String}
    (hown : ∀ b, own = some b → D.binding b) :
    D.binding (ctx.model.declaredBinding own type) := by
  match own, type with
  | some b, _ => exact hown b rfl
  | none, some name => exact h.typeLevel name
  | none, none => exact D.inherits

theorem accessLevel (h : D.Within ctx) (component : DeclId) {receiver : ValueLevel}
    (hr : D.level receiver) : D.level (ctx.model.accessLevel component receiver) :=
  memberLevel_level (h.componentBinding component) fun _ e => Option.some.inj e ▸ hr

/-- A call through an allowed receiver gives an allowed level. -/
theorem callLevel (h : D.Within ctx) (method : DeclId) {receiver : Option ValueLevel}
    (hr : ∀ l, receiver = some l → D.level l) :
    D.level (ctx.model.callLevel method receiver) := by
  unfold Model.callLevel
  split
  · exact memberLevel_level D.inherits hr
  · next m hm =>
    split
    · next l _ hl => exact D.ofLevel (h.explicitTypeLevel? hl).2
    · exact memberLevel_level (h.method hm) hr

theorem callResult (h : D.Within ctx) (callee : DeclId) {receiver : Option ValueLevel}
    (hr : ∀ l, receiver = some l → D.level l) :
    D.level (ctx.model.callResult callee receiver ctx.self) := by
  unfold Model.callResult
  split
  · refine h.accessLevel callee ?_
    cases receiver with
    | none => exact h.selfLevel
    | some l => exact hr l rfl
  · exact D.inherit_level
  · refine h.callLevel callee fun l hl => ?_
    cases receiver with
    | some l' => exact hr l hl
    | none =>
      split at hl
      · cases hl
      · exact h.self hl

theorem constructionLevel (h : D.Within ctx) (variant : DeclId) :
    D.level (ctx.model.constructionLevel variant) :=
  D.ofLevel (h.variantLevel variant)

/-- A requirement on an argument is allowed, and never to inherit. -/
theorem argRequirement? (h : D.Within ctx) {callee : DeclId} {index : Nat} {r : Level}
    (hr : ctx.model.argRequirement? callee index = some r) :
    r ≠ .inherit ∧ D.binding (.level r) := by
  unfold Model.argRequirement? at hr
  split at hr
  · obtain ⟨p, -, hr⟩ := Option.bind_eq_some_iff.1 hr
    obtain ⟨hb, hne⟩ := explicit?_eq_some hr
    exact ⟨hne, hb ▸ h.paramBinding p.id⟩
  · cases hr

theorem componentRequirement? (h : D.Within ctx) {variant : DeclId} {index : Nat} {r : Level}
    (hr : ctx.model.componentRequirement? variant index = some r) :
    r ≠ .inherit ∧ D.binding (.level r) := by
  obtain ⟨c, hc, hr⟩ := Option.bind_eq_some_iff.1 hr
  obtain ⟨hb, hne⟩ := explicit?_eq_some hr
  exact ⟨hne, hb ▸ h.componentBindings (List.mem_of_getElem? hc)⟩

theorem narrow (h : D.Within ctx) (variant : DeclId) {l : ValueLevel} (hl : D.level l) :
    D.level (l.narrow (ctx.model.variantLevel variant)) := by
  unfold ValueLevel.narrow
  split
  · exact D.ofLevel (h.variantLevel variant)
  · exact hl

/-- A component gets an allowed level, read or seen in the construction. -/
theorem matchedLevel (h : D.Within ctx) (variant : DeclId) {l : ValueLevel} (hl : D.level l)
    {built : Option Construction} (hb : ∀ b, built = some b → ∀ a ∈ b.args, D.level a)
    (index : Nat) : D.level (ctx.model.matchedLevel variant l built index) := by
  have hbinding : ∀ b, (ctx.model.componentBindings variant)[index]?.map Prod.snd = some b →
      D.binding b := by
    intro b hb
    obtain ⟨c, hc, rfl⟩ := Option.map_eq_some_iff.1 hb
    exact h.componentBindings (List.mem_of_getElem? hc)
  unfold Model.matchedLevel
  split
  · next hc => exact D.unchecked (hbinding _ hc)
  · next hc => exact D.ofLevel (hbinding _ hc)
  · next hc => exact D.ofLevel (hbinding _ hc)
  · split
    · next arg harg =>
      obtain ⟨b, hfilter, harg⟩ := Option.bind_eq_some_iff.1 harg
      exact hb b (Option.filter_eq_some_iff.1 hfilter).1 arg (List.mem_of_getElem? harg)
    · exact D.inheritedFrom hl

theorem plainLevel (h : D.Within ctx) {l : ValueLevel} (hl : D.level l) (type : Option String) :
    D.level (ctx.plainLevel l type) := by
  unfold Context.plainLevel
  split
  · split
    · next r hr => exact D.ofLevel (h.explicitTypeLevel? hr).2
    · exact D.inherit_level
  · exact stored_level hl

end Within

/-! ## States of variables -/

theorem plainLevel_settled (ctx : Context) (l : ValueLevel) (type : Option String) :
    (ctx.plainLevel l type).Settled := by
  unfold Context.plainLevel
  split
  · split <;> trivial
  · cases l <;> trivial

/-- Paths that join in settled levels give a settled one. -/
theorem meet_settled {a b : ValueLevel} (ha : a.Settled) (hb : b.Settled) :
    (a.meet b).Settled := by
  rcases a with _ | _ | a | a <;> rcases b with _ | _ | b | b <;> trivial

namespace State

/-- A variable that is free to change is in an allowed state when its level is settled. -/
theorem plain {l : ValueLevel} (hl : D.level l) (hs : l.Settled) (type : Option String) :
    D.State (.plain l type) :=
  ⟨hl, hs, fun h => (nomatch h), fun h => (nomatch h)⟩

theorem pin {l : Level} (hl : D.binding (.level l)) (hne : l ≠ .inherit) (span : Option Span)
    (type : Option String) : D.State (.pin l span type) :=
  ⟨D.ofLevel hl, trivial, fun h => Option.some.inj h ▸ ⟨hne, hl⟩, fun _ => rfl⟩

theorem ofBinding {b : Binding} (hb : D.binding b) (span : Option Span) (type : Option String) :
    D.State (.ofBinding b span type) := by
  match b with
  | .noInherit => exact plain (D.unchecked hb) trivial type
  | .level .inherit => exact plain D.inherit_level trivial type
  | .level .bound => exact pin hb (by decide) span type
  | .level .closed => exact pin hb (by decide) span type

/-- Storing a settled level keeps the state allowed. -/
theorem setLevel {s : VarState} (h : D.State s) {level : ValueLevel} (hl : D.level level)
    (hs : level.Settled) : D.State { s with level } :=
  ⟨hl, hs, h.pinned, h.pinnedAt⟩

/-- The state of a variable after two paths join is allowed. -/
theorem join {s t : VarState} (hs : D.State s) (ht : D.State t) :
    D.State { s with level := s.level.meet t.level } :=
  hs.setLevel (D.meet hs.level ht.level) (meet_settled hs.settled ht.settled)

/-- A local starts in an allowed state, whether its marker is kept or dropped. -/
theorem initialState {ctx : Context} (h : D.Within ctx) (decl : LocalDecl)
    {resolution : Resolution} (hr : ∀ b, resolution.binding = some b → D.binding b) (init : Expr)
    {value : ValueLevel} (hv : D.level value) (env : Env) :
    D.State (ctx.initialState decl resolution init value env) := by
  have hplain : ∀ type, D.State (.plain (ctx.plainLevel value type) type) := fun type =>
    plain (h.plainLevel hv type) (plainLevel_settled ctx value type) type
  unfold Context.initialState
  split
  · next hb => exact plain (D.unchecked (hr _ hb)) trivial _
  · exact hplain _
  · exact hplain _
  · next l hne hb =>
    split
    · exact pin (hr _ hb) hne _ _
    · exact hplain _

/-- A pattern variable starts in an allowed state. -/
theorem matched {b : Option Binding} (hb : ∀ b', b = some b' → D.binding b') {l : ValueLevel}
    (hl : D.level l) (type : Option String) : D.State (.plain (PatternVar.levelFor b l) type) := by
  have hmatched : D.State (.plain l.matched type) := by
    refine plain (D.matched hl) ?_ type
    cases l <;> trivial
  match b with
  | some .noInherit => exact plain (D.unchecked (hb _ rfl)) trivial type
  | some (.level .inherit) => exact hmatched
  | none => exact hmatched
  | some (.level .bound) => exact plain (D.ofLevel (hb _ rfl)) trivial type
  | some (.level .closed) => exact plain (D.ofLevel (hb _ rfl)) trivial type

end State

/-! ## What the steps find -/

/-- Every diagnostic of a log is allowed. -/
def Finds (D : Discipline) (log : List Event) : Prop :=
  ∀ d ∈ Event.diagnostics log, D.finding d

theorem finds_nil : D.Finds [] := fun _ h => nomatch h

theorem finds_append {a b : List Event} : D.Finds (a ++ b) ↔ D.Finds a ∧ D.Finds b := by
  simp [Finds, Event.diagnostics, or_imp, forall_and]

theorem finds_noted (n : Note) : D.Finds [.noted n] := fun _ h => nomatch h

theorem finds_found {d : Diagnostic} (h : D.finding d) : D.Finds [.found d] :=
  fun _ hd => List.mem_singleton.1 hd ▸ h

theorem finds_ofConflicts (id : DeclId) (cs : List Conflict) :
    D.Finds (Event.ofConflicts id cs) := by
  intro d hmem
  obtain ⟨e, he, hd⟩ := List.mem_filterMap.1 hmem
  cases cs with
  | nil => cases he
  | cons c rest =>
    rcases List.mem_cons.1 he with rfl | he
    · cases hd
    · obtain ⟨c', -, he⟩ := List.mem_flatMap.1 he
      rcases List.mem_cons.1 he with rfl | he
      · cases hd
      · rw [List.mem_singleton.1 he] at hd
        exact Option.some.inj hd ▸ D.conflict _ _ _

/-- The options only leave findings out. -/
theorem finds_finding (options : Options) {d : Diagnostic} (h : D.finding d) :
    D.Finds (options.finding d) := by
  unfold Options.finding
  split
  · exact finds_found h
  · exact finds_nil

/-- Judging an allowed level against an allowed requirement finds only what is allowed. -/
theorem finds_judgementLog (options : Options) {r : Level}
    (hr : r ≠ .inherit ∧ D.binding (.level r)) {l : ValueLevel} (hl : D.level l) (site : Site)
    (span : Span) : D.Finds (judgementLog options r l site span) := by
  have hfound : D.Finds (((judge r l site).diagnostic? r span).toList.flatMap options.finding) := by
    cases hd : (judge r l site).diagnostic? r span with
    | none => exact finds_nil
    | some d =>
      rw [Option.toList_some, List.flatMap_singleton]
      exact finds_finding options (D.judged hr.2 hr.1 hl hd)
  exact finds_append.2 ⟨finds_noted (.judged span l r site (judge r l site)), hfound⟩

theorem finds_redundancyLog (options : Options) {r : Level}
    (hr : r ≠ .inherit ∧ D.binding (.level r)) (l : ValueLevel) (span : Option Span) :
    D.Finds (redundancyLog options r l span) := by
  unfold redundancyLog
  split
  · split
    · exact finds_finding options (D.redundant _ hr.2 hr.1)
    · exact finds_nil
  · exact finds_nil

theorem finds_narrowingLog (options : Options) {r : Level} (hr : D.binding (.level r))
    {l : ValueLevel} (hl : D.level l) (span : Span) :
    D.Finds (narrowingLog options r l span) := by
  unfold narrowingLog
  split
  · next hexplicit =>
    split
    · next actual hactual =>
      split
      · next hlt =>
        exact finds_finding options
          (D.narrowing span hr (of_decide_eq_true hexplicit) hl hactual hlt)
      · exact finds_nil
    · exact finds_nil
  · exact finds_nil

theorem finds_positionLog (options : Options) {required : Option Level}
    (hr : ∀ r, required = some r → r ≠ .inherit ∧ D.binding (.level r)) {l : ValueLevel}
    (hl : D.level l) (site : Site) (span : Span) :
    D.Finds (positionLog options required l site span) := by
  cases required with
  | none => exact finds_nil
  | some r => exact finds_judgementLog options (hr r rfl) hl site span

/-- Assigning an allowed level finds only what is allowed, as the pins of variables are. -/
theorem finds_assignmentLog (options : Options) {env : Env} (henv : env.All D.State)
    (target : DeclId) {l : ValueLevel} (hl : D.level l) (span : Span) :
    D.Finds (assignmentLog options target l span env) := by
  unfold assignmentLog
  cases hget : env.get? target with
  | none => exact finds_nil
  | some s =>
    have hs : D.State s := henv.of_get? hget
    cases hp : s.pinned with
    | none => simpa only [hp] using finds_nil
    | some p =>
      simp only [hp]
      exact finds_append.2 ⟨finds_judgementLog options (hs.pinned hp) hl _ _,
        finds_redundancyLog options (hs.pinned hp) l _⟩

/-- A marker that says something is an allowed requirement. -/
theorem marker_allowed {resolution : Resolution}
    (hr : ∀ b, resolution.binding = some b → D.binding b) {l : Level}
    (hl : resolution.binding.bind Binding.explicit? = some l) :
    l ≠ .inherit ∧ D.binding (.level l) := by
  obtain ⟨b, hb, hl⟩ := Option.bind_eq_some_iff.1 hl
  obtain ⟨rfl, hne⟩ := explicit?_eq_some hl
  exact ⟨hne, hr _ hb⟩

/-- Giving a first value finds only what is allowed, as the markers of the declaration are. -/
theorem finds_initialLog (ctx : Context) (decl : LocalDecl) {resolution : Resolution}
    (hr : ∀ b, resolution.binding = some b → D.binding b) (init : Expr) {value : ValueLevel}
    (hv : D.level value) (env : Env) : D.Finds (ctx.initialLog decl resolution init value env) := by
  unfold Context.initialLog
  refine finds_append.2 ⟨?_, finds_noted _⟩
  split
  · next l hl =>
    have hl := marker_allowed hr hl
    refine finds_append.2 ⟨finds_append.2
      ⟨finds_judgementLog _ hl hv _ _, finds_redundancyLog _ hl value _⟩, ?_⟩
    split
    · exact finds_nil
    · exact finds_noted _
  · exact finds_nil

theorem finds_bindingLog (ctx : Context) (var : PatternVar)
    (hr : ∀ b, (ctx.names.resolve var.annots).binding = some b → D.binding b)
    (incoming : ValueLevel) : D.Finds (ctx.bindingLog var incoming) := by
  unfold Context.bindingLog
  refine finds_append.2 ⟨finds_append.2 ⟨finds_ofConflicts _ _, ?_⟩, finds_noted _⟩
  split
  · next l hl => exact finds_redundancyLog _ (marker_allowed hr hl) incoming _
  · exact finds_nil

end Discipline

end Closedness
