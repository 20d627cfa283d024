import Closedness.Env

/-!
# Environments, variable by variable

What each operation on an environment does to the variable found under an id (`get?`), to the ids
each scope holds (`Table.keys`), and to a property of all variables (`Env.All`). Two environments
whose scopes hold the same ids, each in one place, are equal as soon as they agree on what is found
under every id (`Env.eq_of_get?`).
-/

namespace Closedness

/-! ## Tables -/

namespace Table

variable {α : Type}

theorem mem_of_find? {id : DeclId} {value : α} {entries : List (DeclId × α)}
    (h : find? id entries = some value) : (id, value) ∈ entries := by
  induction entries with
  | nil => cases h
  | cons e rest ih =>
    obtain ⟨key, old⟩ := e
    simp only [find?] at h
    split at h
    · next hkey =>
      rw [hkey, Option.some.inj h]
      exact List.mem_cons_self
    · exact List.mem_cons_of_mem _ (ih h)

theorem mem_put {id : DeclId} {value : α} {entries : List (DeclId × α)} {e : DeclId × α}
    (h : e ∈ put id value entries) : e = (id, value) ∨ e ∈ entries := by
  induction entries with
  | nil => exact Or.inl (List.mem_singleton.1 h)
  | cons first rest ih =>
    obtain ⟨key, old⟩ := first
    simp only [put] at h
    split at h
    · next hkey =>
      rcases List.mem_cons.1 h with rfl | h
      · exact Or.inl (by rw [hkey])
      · exact Or.inr (List.mem_cons_of_mem _ h)
    · rcases List.mem_cons.1 h with rfl | h
      · exact Or.inr List.mem_cons_self
      · exact (ih h).imp_right (List.mem_cons_of_mem _)

/-- Something is found just for the keys. -/
theorem find?_isSome_iff {id : DeclId} {entries : List (DeclId × α)} :
    (find? id entries).isSome ↔ id ∈ entries.map Prod.fst := by
  induction entries with
  | nil => simp [find?]
  | cons e rest ih =>
    obtain ⟨key, value⟩ := e
    simp only [find?, List.map_cons, List.mem_cons]
    split
    · next hkey => simp [hkey]
    · next hkey => rw [ih, or_iff_right (Ne.symm hkey)]

/-- An id has an entry just when it is among the keys. -/
theorem get?_isSome_iff {t : Table α} {id : DeclId} : (t.get? id).isSome ↔ id ∈ t.keys :=
  find?_isSome_iff

theorem get?_eq_none_iff {t : Table α} {id : DeclId} : t.get? id = none ↔ id ∉ t.keys := by
  rw [← get?_isSome_iff]
  simp

theorem contains_iff {t : Table α} {id : DeclId} : t.contains id = true ↔ id ∈ t.keys :=
  get?_isSome_iff

/-- A new id is entered last. -/
theorem keys_insert_of_not_mem {t : Table α} {id : DeclId} (h : id ∉ t.keys) (value : α) :
    (t.insert id value).keys = t.keys ++ [id] := by
  obtain ⟨entries⟩ := t
  simp only [keys, insert] at h ⊢
  induction entries with
  | nil => rfl
  | cons e rest ih =>
    obtain ⟨key, old⟩ := e
    rw [List.map_cons, List.mem_cons, not_or] at h
    simp only [put, Ne.symm h.1, ↓reduceIte, List.map_cons, List.cons_append, ih h.2]

/-- An id that is there keeps its place. -/
theorem keys_insert_of_mem {t : Table α} {id : DeclId} (h : id ∈ t.keys) (value : α) :
    (t.insert id value).keys = t.keys := by
  obtain ⟨entries⟩ := t
  simp only [keys, insert] at h ⊢
  induction entries with
  | nil => cases h
  | cons e rest ih =>
    obtain ⟨key, old⟩ := e
    simp only [put]
    split
    · rfl
    · next hkey =>
      have hrest : id ∈ rest.map Prod.fst := (List.mem_cons.1 h).resolve_left (Ne.symm hkey)
      rw [List.map_cons, List.map_cons, ih hrest]

/-- Lists with the same keys, each of them once, are equal when they answer alike. -/
theorem eq_of_find? {a b : List (DeclId × α)} (hkeys : a.map Prod.fst = b.map Prod.fst)
    (hnodup : (a.map Prod.fst).Nodup) (h : ∀ id ∈ a.map Prod.fst, find? id a = find? id b) :
    a = b := by
  induction a generalizing b with
  | nil => exact (List.map_eq_nil_iff.1 hkeys.symm).symm
  | cons e rest ih =>
    cases b with
    | nil => cases hkeys
    | cons e' rest' =>
      obtain ⟨key, value⟩ := e
      obtain ⟨key', value'⟩ := e'
      obtain ⟨rfl, hrest⟩ := List.cons.inj hkeys
      obtain ⟨hnew, hnodup⟩ := List.nodup_cons.1 hnodup
      have hvalue : value = value' := by simpa [find?] using h key List.mem_cons_self
      rw [hvalue, ih hrest hnodup fun id hid => ?_]
      have hne : key ≠ id := fun e => hnew (e ▸ hid)
      simpa [find?, hne] using h id (List.mem_cons_of_mem _ hid)

/-- A table is determined by its keys and by what is found under them. -/
theorem eq_of_get? {a b : Table α} (hkeys : a.keys = b.keys) (hnodup : a.keys.Nodup)
    (h : ∀ id ∈ a.keys, a.get? id = b.get? id) : a = b := by
  obtain ⟨a⟩ := a
  obtain ⟨b⟩ := b
  exact congrArg Table.mk (eq_of_find? hkeys hnodup h)

/-- An entry is found under its key when keys do not repeat. -/
theorem find?_of_mem {entries : List (DeclId × α)} (hnodup : (entries.map Prod.fst).Nodup)
    {e : DeclId × α} (he : e ∈ entries) : find? e.1 entries = some e.2 := by
  induction entries with
  | nil => cases he
  | cons first rest ih =>
    obtain ⟨hnew, hnodup⟩ := List.nodup_cons.1 hnodup
    rcases List.mem_cons.1 he with rfl | he
    · simp [find?]
    · have hne : first.1 ≠ e.1 := fun heq => hnew (heq ▸ List.mem_map_of_mem he)
      rw [find?, if_neg hne]
      exact ih hnodup he

/-- Where no key occurs twice, every entry is found. -/
theorem get?_of_mem {t : Table α} (hnodup : t.keys.Nodup) {e : DeclId × α} (he : e ∈ t.entries) :
    t.get? e.1 = some e.2 :=
  find?_of_mem hnodup he

end Table

/-! ## What is found under an id -/

namespace Env

/-- The ids of all variables, scope by scope. -/
def ids (env : Env) : List DeclId :=
  env.frames.flatMap Table.keys

/-- A variable is found just when some scope holds it. -/
theorem lookup_isSome_iff {id : DeclId} {frames : List Frame} :
    (lookup id frames).isSome ↔ id ∈ frames.flatMap Table.keys := by
  induction frames with
  | nil => simp [lookup]
  | cons frame rest ih =>
    simp only [lookup, List.flatMap_cons, List.mem_append]
    rw [← ih, ← Table.get?_isSome_iff]
    cases frame.get? id <;> simp

/-- A variable can be looked up just when some scope holds it. -/
theorem get?_isSome_iff {env : Env} {id : DeclId} : (env.get? id).isSome ↔ id ∈ env.ids :=
  lookup_isSome_iff

theorem get?_eq_none_iff {env : Env} {id : DeclId} : env.get? id = none ↔ id ∉ env.ids := by
  rw [← get?_isSome_iff]
  simp

theorem mem_ids_of_get? {env : Env} {id : DeclId} {s : VarState} (h : env.get? id = some s) :
    id ∈ env.ids :=
  get?_isSome_iff.1 (by rw [h]; rfl)

theorem exists_get?_of_mem_ids {env : Env} {id : DeclId} (h : id ∈ env.ids) :
    ∃ s, env.get? id = some s :=
  Option.isSome_iff_exists.1 (get?_isSome_iff.2 h)

@[simp] theorem get?_push (env : Env) (id : DeclId) : env.push.get? id = env.get? id := rfl

/-- A variable is looked up in the innermost scope and then in the outer ones. -/
theorem get?_eq_inner_or (env : Env) (id : DeclId) :
    env.get? id = (env.inner.get? id).or (lookup id env.outer) := by
  simp only [get?, frames, lookup]
  cases env.inner.get? id <;> rfl

/-- Leaving a scope keeps what is found under the ids it does not hold. -/
theorem get?_pop {env : Env} {id : DeclId} (h : id ∉ env.inner.keys) :
    env.pop.get? id = env.get? id := by
  obtain ⟨inner, outer⟩ := env
  cases outer with
  | nil => rfl
  | cons frame rest =>
    rw [get?_eq_inner_or ⟨inner, _⟩, Table.get?_eq_none_iff.2 h]
    rfl

theorem lookup_map (f : DeclId → VarState → VarState) (id : DeclId) (frames : List Frame) :
    lookup id (frames.map (Table.map f)) = (lookup id frames).map (f id) := by
  induction frames with
  | nil => rfl
  | cons frame rest ih =>
    simp only [List.map_cons, lookup, Table.get?_map, ih]
    cases frame.get? id <;> rfl

/-- A variable of a merged environment is that of the first, joined with the second. -/
theorem get?_merge (env other : Env) (id : DeclId) :
    (env.merge other).get? id = (env.get? id).map (other.join id) :=
  lookup_map other.join id env.frames

/-- Storing a level in one scope changes the state of that variable, if the scope holds it. -/
theorem get?_setIn (id other : DeclId) (level : ValueLevel) (frame : Frame) :
    (setIn id level frame).get? other =
      (frame.get? other).map fun s => if other = id then { s with level } else s := by
  rw [setIn, Table.get?_map]

@[simp] theorem keys_setIn (id : DeclId) (level : ValueLevel) (frame : Frame) :
    (setIn id level frame).keys = frame.keys :=
  Table.keys_map _ frame

/-- Assigning walks through the scopes, the innermost first. -/
theorem frames_assign (env : Env) (id : DeclId) (level : ValueLevel) :
    (env.assign id level).frames = setLevel id level env.frames := by
  simp only [assign, frames, setLevel]
  split <;> rfl

theorem keys_setLevel (id : DeclId) (level : ValueLevel) (frames : List Frame) :
    (setLevel id level frames).map Table.keys = frames.map Table.keys := by
  induction frames with
  | nil => rfl
  | cons frame rest ih =>
    simp only [setLevel]
    split
    · simp
    · simp [ih]

/-- Storing a level changes what is found for that variable, and for no other. -/
theorem lookup_setLevel (id other : DeclId) (level : ValueLevel) (frames : List Frame) :
    lookup other (setLevel id level frames) =
      (lookup other frames).map fun s => if other = id then { s with level } else s := by
  induction frames with
  | nil => rfl
  | cons frame rest ih =>
    simp only [setLevel]
    split
    · next hcontains =>
      simp only [lookup, get?_setIn]
      cases hget : frame.get? other with
      | some s => rfl
      | none =>
        have hne : other ≠ id := by
          rintro rfl
          exact (Table.get?_eq_none_iff.1 hget) (Table.contains_iff.1 hcontains)
        simp [hne]
    · next hcontains =>
      simp only [lookup, ih]
      cases hget : frame.get? other with
      | none => rfl
      | some s =>
        have hne : other ≠ id := by
          rintro rfl
          exact hcontains (Table.contains_iff.2 (Table.get?_isSome_iff.1 (by simp [hget])))
        simp [hne]

/-- Assigning sets the level of one variable and nothing else. -/
theorem get?_assign (env : Env) (id other : DeclId) (level : ValueLevel) :
    (env.assign id level).get? other =
      (env.get? other).map fun s => if other = id then { s with level } else s := by
  unfold get?
  rw [frames_assign]
  exact lookup_setLevel id other level env.frames

/-- Assigning keeps the variables of every scope. -/
theorem map_keys_frames_assign (env : Env) (id : DeclId) (level : ValueLevel) :
    (env.assign id level).frames.map Table.keys = env.frames.map Table.keys := by
  rw [frames_assign, keys_setLevel]

/-- Scopes with the same variables, each of them once, are equal when they answer alike. -/
theorem frames_eq_of_lookup {a b : List Frame} (hkeys : a.map Table.keys = b.map Table.keys)
    (hnodup : (a.flatMap Table.keys).Nodup)
    (h : ∀ id ∈ a.flatMap Table.keys, lookup id a = lookup id b) : a = b := by
  induction a generalizing b with
  | nil => exact (List.map_eq_nil_iff.1 hkeys.symm).symm
  | cons frame rest ih =>
    cases b with
    | nil => cases hkeys
    | cons frame' rest' =>
      obtain ⟨hkeys, hrest⟩ := List.cons.inj hkeys
      rw [List.flatMap_cons, List.nodup_append] at hnodup
      obtain ⟨hframe, hnodup, hdisjoint⟩ := hnodup
      have hlookup : ∀ id ∈ frame.keys, frame.get? id = frame'.get? id := by
        intro id hid
        obtain ⟨s, hs⟩ := Option.isSome_iff_exists.1 (Table.get?_isSome_iff.2 hid)
        obtain ⟨s', hs'⟩ := Option.isSome_iff_exists.1 (Table.get?_isSome_iff.2 (hkeys ▸ hid))
        have hid' := h id (List.mem_flatMap.2 ⟨frame, List.mem_cons_self, hid⟩)
        simpa [lookup, hs, hs'] using hid'
      rw [Table.eq_of_get? hkeys hframe hlookup, ih hrest hnodup fun id hid => ?_]
      have hnew : id ∉ frame.keys := fun hmem => hdisjoint id hmem id hid rfl
      have hid' := h id (by rw [List.flatMap_cons]; exact List.mem_append_right _ hid)
      simpa only [lookup, Table.get?_eq_none_iff.2 hnew, Table.get?_eq_none_iff.2 (hkeys ▸ hnew)]
        using hid'

theorem eq_of_frames {a b : Env} (h : a.frames = b.frames) : a = b := by
  obtain ⟨inner, outer⟩ := a
  obtain ⟨inner', outer'⟩ := b
  obtain ⟨rfl, rfl⟩ := List.cons.inj h
  rfl

/-- An environment in which no id occurs twice is determined by the ids of its scopes and by what
is found under them. -/
theorem eq_of_get? {a b : Env} (hkeys : a.frames.map Table.keys = b.frames.map Table.keys)
    (hnodup : a.ids.Nodup) (h : ∀ id ∈ a.ids, a.get? id = b.get? id) : a = b :=
  eq_of_frames (frames_eq_of_lookup hkeys hnodup h)

end Env

/-! ## Properties of every variable -/

namespace Env

/-- Every variable of every scope has the property, visible or not. -/
def All (P : VarState → Prop) (env : Env) : Prop :=
  ∀ frame ∈ env.frames, ∀ e ∈ frame.entries, P e.2

namespace All

variable {P : VarState → Prop}

theorem empty : All P {} := by
  intro frame hframe e he
  rw [List.mem_singleton.1 hframe] at he
  cases he

theorem of_lookup {id : DeclId} {s : VarState} : ∀ {frames : List Frame},
    (∀ frame ∈ frames, ∀ e ∈ frame.entries, P e.2) → lookup id frames = some s → P s
  | [], _, hs => by cases hs
  | frame :: rest, h, hs => by
    simp only [lookup] at hs
    split at hs
    · next hget =>
      rw [← Option.some.inj hs]
      exact h frame List.mem_cons_self _ (Table.mem_of_find? hget)
    · exact of_lookup (fun f hf => h f (List.mem_cons_of_mem _ hf)) hs

/-- The property holds of the variables that can be looked up. -/
theorem of_get? {env : Env} (h : env.All P) {id : DeclId} {s : VarState}
    (hs : env.get? id = some s) : P s :=
  of_lookup h hs

/-- Without shadowing, every state in the scopes is found. -/
theorem lookup_of_mem {frames : List Frame} (hnodup : (frames.flatMap Table.keys).Nodup)
    {frame : Frame} (hframe : frame ∈ frames) {e : DeclId × VarState} (he : e ∈ frame.entries) :
    lookup e.1 frames = some e.2 := by
  induction frames with
  | nil => cases hframe
  | cons first rest ih =>
    rw [List.flatMap_cons, List.nodup_append] at hnodup
    obtain ⟨hfirst, hnodup, hdisjoint⟩ := hnodup
    have hkey : e.1 ∈ frame.keys := List.mem_map_of_mem he
    rcases List.mem_cons.1 hframe with rfl | hframe
    · rw [lookup, Table.get?_of_mem hfirst he]
    · have hnew : e.1 ∉ first.keys := fun hmem =>
        hdisjoint e.1 hmem e.1 (List.mem_flatMap.2 ⟨frame, hframe, hkey⟩) rfl
      rw [lookup, Table.get?_eq_none_iff.2 hnew]
      exact ih hnodup hframe

/-- Where no id occurs twice, every variable can be looked up. -/
theorem of_nodup {env : Env} (hnodup : env.ids.Nodup)
    (h : ∀ {id s}, env.get? id = some s → P s) : env.All P :=
  fun _ hframe _ he => h (lookup_of_mem hnodup hframe he)

theorem push {env : Env} (h : env.All P) : env.push.All P := by
  intro frame hframe
  rcases List.mem_cons.1 hframe with rfl | hframe
  · intro e he
    cases he
  · exact h frame hframe

theorem pop {env : Env} (h : env.All P) : env.pop.All P := by
  obtain ⟨inner, outer⟩ := env
  cases outer with
  | nil => exact h
  | cons frame rest => exact fun f hf => h f (List.mem_cons_of_mem _ hf)

theorem declare {env : Env} (h : env.All P) {s : VarState} (hs : P s) (id : DeclId) :
    (env.declare id s).All P := by
  intro frame hframe e he
  rcases List.mem_cons.1 hframe with rfl | hframe
  · rcases Table.mem_put he with rfl | he
    · exact hs
    · exact h env.inner List.mem_cons_self e he
  · exact h frame (List.mem_cons_of_mem _ hframe) e he

theorem setIn {level : ValueLevel} (hset : ∀ s, P s → P { s with level }) {frame : Frame}
    (h : ∀ e ∈ frame.entries, P e.2) (id : DeclId) :
    ∀ e ∈ (Env.setIn id level frame).entries, P e.2 := by
  intro e he
  obtain ⟨old, hold, rfl⟩ := List.mem_map.1 he
  show P (if old.1 = id then { old.2 with level } else old.2)
  split
  · exact hset old.2 (h old hold)
  · exact h old hold

theorem setLevel {level : ValueLevel} (hset : ∀ s, P s → P { s with level }) (id : DeclId) :
    ∀ {frames : List Frame}, (∀ frame ∈ frames, ∀ e ∈ frame.entries, P e.2) →
      ∀ frame ∈ Env.setLevel id level frames, ∀ e ∈ frame.entries, P e.2
  | [], h => h
  | first :: rest, h => by
    have hrest : ∀ frame ∈ rest, ∀ e ∈ frame.entries, P e.2 :=
      fun f hf => h f (List.mem_cons_of_mem _ hf)
    simp only [Env.setLevel]
    intro frame hframe
    split at hframe
    · rcases List.mem_cons.1 hframe with rfl | hframe
      · exact setIn hset (h first List.mem_cons_self) id
      · exact hrest frame hframe
    · rcases List.mem_cons.1 hframe with rfl | hframe
      · exact h frame List.mem_cons_self
      · exact setLevel hset id hrest frame hframe

/-- Storing a level keeps the property when it does not depend on the level. -/
theorem assign {env : Env} (h : env.All P) {level : ValueLevel}
    (hset : ∀ s, P s → P { s with level }) (id : DeclId) : (env.assign id level).All P := by
  have hinner := h env.inner List.mem_cons_self
  have houter : ∀ frame ∈ env.outer, ∀ e ∈ frame.entries, P e.2 :=
    fun f hf => h f (List.mem_cons_of_mem _ hf)
  unfold Env.assign
  intro frame hframe
  split at hframe
  · rcases List.mem_cons.1 hframe with rfl | hframe
    · exact setIn hset hinner id
    · exact houter frame hframe
  · rcases List.mem_cons.1 hframe with rfl | hframe
    · exact hinner
    · exact setLevel hset id houter frame hframe

/-- Joining two paths keeps the property when the meet of two states has it. -/
theorem merge {env other : Env} (h : env.All P) (hother : other.All P)
    (hmeet : ∀ s t, P s → P t → P { s with level := s.level.meet t.level }) :
    (env.merge other).All P := by
  intro frame hframe e he
  rw [frames_merge] at hframe
  obtain ⟨old, hold, rfl⟩ := List.mem_map.1 hframe
  obtain ⟨entry, hentry, rfl⟩ := List.mem_map.1 he
  show P (other.join entry.1 entry.2)
  have hP : P entry.2 := h old hold entry hentry
  unfold join level?
  cases hget : other.get? entry.1 with
  | none => exact hP
  | some t => exact hmeet entry.2 t hP (hother.of_get? hget)

end All

end Env

end Closedness
