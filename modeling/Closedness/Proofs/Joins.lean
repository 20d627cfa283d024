import Closedness.Proofs.Points

/-!
# Where paths join

Where the paths of a branch join, each variable has the meet of the levels it has at their ends
(`Env.MeetOf`). An arm of a switch is a path of its own, walked from where the scrutinee leaves, and
passing by all arms is one more path unless some arm is the default. Since the meet does not depend
on the order of the levels, the environment after a join does not depend on the order of the paths
(`Env.MeetOf.unique`).
-/

namespace Closedness

/-! ## Meets of several levels -/

namespace ValueLevel

/-- The meet of any number of levels: null, which adds nothing, if there are none. -/
def meetList (levels : List ValueLevel) : ValueLevel :=
  levels.foldr meet .null

@[simp] theorem meetList_cons (l : ValueLevel) (levels : List ValueLevel) :
    meetList (l :: levels) = l.meet (meetList levels) := rfl

/-- The meet of two levels before that of further ones. -/
theorem meetList_meet (a b : ValueLevel) (levels : List ValueLevel) :
    meetList (a.meet b :: levels) = meetList (a :: b :: levels) :=
  meet_assoc a b (meetList levels)

/-- The order in which paths join does not matter. -/
theorem meetList_perm {a b : List ValueLevel} (h : a.Perm b) : meetList a = meetList b := by
  refine h.foldr_eq' (fun x _ y _ z => ?_) ValueLevel.null
  rw [← meet_assoc, meet_comm y x, meet_assoc]

/-- Joining paths one after the other gives the meet of all. -/
theorem foldl_meet (levels : List ValueLevel) (first : ValueLevel) :
    levels.foldl meet first = meetList (first :: levels) := by
  induction levels generalizing first with
  | nil => exact (meet_null first).symm
  | cons l rest ih => rw [List.foldl_cons, ih, meetList_meet]

end ValueLevel

/-- The value of a switch is the meet of the values its arms have. -/
theorem Walk.meetAll_eq (levels : List (Option ValueLevel)) :
    meetAll levels =
      if levels.filterMap id = [] then none else some (.meetList (levels.filterMap id)) := by
  unfold meetAll
  cases levels.filterMap id with
  | nil => rfl
  | cons first rest => exact congrArg some (ValueLevel.foldl_meet rest first)

/-- The value of a switch does not depend on the order of its arms. -/
theorem Walk.meetAll_perm {a b : List (Option ValueLevel)} (h : a.Perm b) :
    meetAll a = meetAll b := by
  have hfilter := h.filterMap id
  have hnil : a.filterMap id = [] ↔ b.filterMap id = [] :=
    ⟨fun e => (e ▸ hfilter).nil_eq.symm, fun e => (e ▸ hfilter).eq_nil⟩
  rw [meetAll_eq, meetAll_eq, ValueLevel.meetList_perm hfilter]
  simp only [hnil]

/-! ## Meets of several paths -/

namespace Env

/-- The paths, which all know the variables of `before`, meet in `after`: it has the variables of
`before`, with the meet of the levels they have at the ends of the paths. -/
structure MeetOf (before : Env) (paths : List Env) (after : Env) : Prop where
  scopes : after.frames.map Table.keys = before.frames.map Table.keys
  level : ∀ {id s}, before.get? id = some s → ∃ levels,
    paths.map (fun path => path.level? id) = levels.map some ∧
      after.get? id = some { s with level := .meetList levels }

/-- **The order of the paths does not matter.** -/
theorem MeetOf.unique {before a b : Env} {paths paths' : List Env} (hnodup : before.ids.Nodup)
    (hperm : paths.Perm paths') (ha : before.MeetOf paths a) (hb : before.MeetOf paths' b) :
    a = b := by
  have hids : a.ids = before.ids := ids_of_keys ha.scopes
  refine eq_of_get? (ha.scopes.trans hb.scopes.symm) (hids ▸ hnodup) fun id hid => ?_
  obtain ⟨s, hs⟩ := exists_get?_of_mem_ids (hids ▸ hid)
  obtain ⟨levels, hlevels, hget⟩ := ha.level hs
  obtain ⟨levels', hlevels', hget'⟩ := hb.level hs
  have hmap : (levels.map some).Perm (levels'.map some) := by
    rw [← hlevels, ← hlevels']
    exact hperm.map _
  have hlevels : levels.Perm levels' := by
    simpa [List.filterMap_map] using hmap.filterMap fun l => l
  rw [hget, hget', ValueLevel.meetList_perm hlevels]

theorem level?_of_get? {env : Env} {id : DeclId} {s : VarState} {level : ValueLevel}
    (h : env.get? id = some { s with level }) : env.level? id = some level := by
  rw [level?, h]
  rfl

/-- Joining a path takes the meet with the level it has for a variable. -/
theorem get?_merge_of_get? {env other : Env} {id : DeclId} {s : VarState} {a b : ValueLevel}
    (ha : env.get? id = some { s with level := a })
    (hb : other.get? id = some { s with level := b }) :
    (env.merge other).get? id = some { s with level := a.meet b } := by
  rw [get?_merge, ha]
  simp only [Option.map_some, join, level?_of_get? hb]

/-- Where every path holds a variable, in states that differ at most in the level, the paths join in
the meet of the levels they give it. -/
theorem get?_foldl_merge {id : DeclId} {s : VarState} {outcomes : List Env}
    (h : ∀ o ∈ outcomes, ∃ level, o.get? id = some { s with level }) {first : Env}
    {level : ValueLevel} (hfirst : first.get? id = some { s with level }) :
    ∃ levels, outcomes.map (fun o => o.level? id) = levels.map some ∧
      (outcomes.foldl Env.merge first).get? id =
        some { s with level := .meetList (level :: levels) } := by
  induction outcomes generalizing first level with
  | nil => exact ⟨[], rfl, by rw [List.foldl_nil, hfirst]; simp [ValueLevel.meetList]⟩
  | cons o rest ih =>
    obtain ⟨l, hl⟩ := h o List.mem_cons_self
    obtain ⟨levels, hlevels, hget⟩ :=
      ih (fun o' ho' => h o' (List.mem_cons_of_mem _ ho')) (get?_merge_of_get? hfirst hl)
    refine ⟨l :: levels, ?_, ?_⟩
    · rw [List.map_cons, hlevels, level?_of_get? hl]
      rfl
    · rw [List.foldl_cons, hget, ValueLevel.meetList_meet]

/-- The arms of a switch meet; so does the path that passes them by, if none has to be taken. -/
theorem joinAll_meetOf {exhaustive : Bool} {before : Env} {outcomes : List Env}
    {assigned : List DeclId} (hf : before.Fresh [])
    (h : ∀ o ∈ outcomes, Evolves [] assigned before o)
    (hsome : exhaustive = true → outcomes ≠ []) :
    before.MeetOf ((if exhaustive then [] else [before]) ++ outcomes)
      (Walk.joinAll exhaustive before outcomes) := by
  refine ⟨(Evolves.joinAll hf h).keys_frames, fun {id s} hs => ?_⟩
  have hlevel : ∀ o ∈ outcomes, ∃ level, o.get? id = some { s with level } := fun o ho =>
    (h o ho).kept hs |>.imp fun _ => And.left
  cases exhaustive with
  | true =>
    cases outcomes with
    | nil => exact absurd rfl (hsome rfl)
    | cons first rest =>
      obtain ⟨l, hl⟩ := hlevel first List.mem_cons_self
      obtain ⟨levels, hlevels, hget⟩ :=
        get?_foldl_merge (fun o ho => hlevel o (List.mem_cons_of_mem _ ho)) hl
      refine ⟨l :: levels, ?_, hget⟩
      simp only [↓reduceIte, List.nil_append, List.map_cons, hlevels, level?_of_get? hl]
  | false =>
    obtain ⟨levels, hlevels, hget⟩ := get?_foldl_merge hlevel hs
    refine ⟨s.level :: levels, ?_, hget⟩
    simp only [Bool.false_eq_true, ↓reduceIte, List.singleton_append, List.map_cons, hlevels,
      level?_of_get? hs]

/-- The order of the arms does not matter. -/
theorem joinAll_perm {exhaustive : Bool} {before : Env} {outcomes outcomes' : List Env}
    {assigned : List DeclId} (hf : before.Fresh [])
    (h : ∀ o ∈ outcomes, Evolves [] assigned before o) (hperm : outcomes.Perm outcomes') :
    Walk.joinAll exhaustive before outcomes = Walk.joinAll exhaustive before outcomes' := by
  by_cases hnil : outcomes = []
  · subst hnil
    rw [← hperm.nil_eq]
  · have hnil' : outcomes' ≠ [] := fun e => hnil (e ▸ hperm).eq_nil
    have h' : ∀ o ∈ outcomes', Evolves [] assigned before o := fun o ho =>
      h o (hperm.mem_iff.2 ho)
    exact (joinAll_meetOf hf h fun _ => hnil).unique hf.nodup_ids (hperm.append_left _)
      (joinAll_meetOf hf h' fun _ => hnil')

end Env

/-- Two paths that start from inside a scope meet when the scope is left. -/
theorem Walk.Evolves.inScope_fork_meetOf {α β γ : Type} {first : Walk α} {a : Walk β} {b : Walk γ}
    {declared assigned declaredA assignedA declaredB assignedB : List DeclId}
    (hfirst : first.Evolves declared assigned) (ha : a.Evolves declaredA assignedA)
    (hb : b.Evolves declaredB assignedB) {env : Env}
    (hf : env.Fresh (declared ++ (declaredA ++ declaredB))) :
    env.MeetOf [(a (first env.push).env).env, (b (first env.push).env).env]
      (((first >>= fun _ => a.fork b) : Walk (β × γ)).inScope env).env := by
  have hwhole := hfirst.bind fun _ => ha.fork hb
  refine ⟨(hwhole.inScope_apply hf).keys_frames, fun {id s} hs => ?_⟩
  have hstart := hfirst env.push hf.push.left
  have hpaths := hstart.fresh hf.push
  obtain ⟨level, hget, -⟩ := hstart.kept ((Env.get?_push env id).trans hs)
  obtain ⟨levelA, hgetA, -⟩ := (ha _ hpaths.left).kept hget
  obtain ⟨levelB, hgetB, -⟩ := (hb _ hpaths.right).kept hget
  refine ⟨[levelA, levelB], ?_, ?_⟩
  · simp only [List.map_cons, List.map_nil, Env.level?_of_get? hgetA, Env.level?_of_get? hgetB]
  · -- the walk goes on with the second path, which the first one joins
    have hpop := (hwhole env.push hf.push).get?_pop hf (Env.mem_ids_of_get? hs)
    refine hpop.trans ((Env.get?_merge_of_get? hgetB hgetA).trans ?_)
    rw [ValueLevel.meetList_cons, ValueLevel.meetList_cons, ValueLevel.meet_comm levelB]
    simp [ValueLevel.meetList]

/-! ## Branching parts -/

section Branching

variable (ctx : Context) (env : Env)

/-- What the arms of a switch lead to, each walked on its own from where the scrutinee leaves. -/
def armOutcomes (scrutinee : Expr) (arms : List Arm) : List (Outcome (Option ValueLevel)) :=
  arms.map fun a => (Part.arm (eval ctx scrutinee env).value a).run ctx (eval ctx scrutinee env).env

/-- The ends of the paths through a switch: those of the arms and, unless one of them is the
default, the point before them. -/
def switchPaths (scrutinee : Expr) (arms : List Arm) : List Env :=
  (if arms.any Arm.isDefault then [] else [(eval ctx scrutinee env).env])
    ++ (armOutcomes ctx env scrutinee arms).map Outcome.env

/-- A switch walked from `env` logs what its scrutinee and its arms log, each arm on its own, and
leaves the environment in which the paths through it meet. It keeps the variables that were there
before it. -/
structure SwitchJoins (scrutinee : Expr) (arms : List Arm) (log : List Event) (after : Env) :
    Prop where
  log : log =
    (eval ctx scrutinee env).log ++ (armOutcomes ctx env scrutinee arms).flatMap Outcome.log
  paths : (eval ctx scrutinee env).env.MeetOf (switchPaths ctx env scrutinee arms) after
  kept : ∀ id ∈ env.ids, id ∈ after.ids

/-- The paths through a part that branches meet after it. -/
def Part.Joins : Part → Prop
  | .expr (.switch scrutinee arms span) =>
    let outcome := eval ctx (.switch scrutinee arms span) env
    let values := (armOutcomes ctx env scrutinee arms).filterMap Outcome.value
    SwitchJoins ctx env scrutinee arms outcome.log outcome.env ∧
      outcome.value.level = if values = [] then .inherit else .meetList values
  | .stmt (.switch scrutinee arms span) =>
    let outcome := exec ctx (.switch scrutinee arms span) env
    SwitchJoins ctx env scrutinee arms outcome.log outcome.env
  | .stmt (.ifElse condition thenBranch elseBranch span) =>
    let start := (eval ctx condition env.push).env
    let passed := match elseBranch with
      | some elseBranch => (execBlock ctx elseBranch start).env
      | none => start
    env.MeetOf [(execBlock ctx thenBranch start).env, passed]
      (exec ctx (.ifElse condition thenBranch elseBranch span) env).env
  | .stmt (.loop condition b span) =>
    let start := (eval ctx condition env.push).env
    env.MeetOf [(execBlock ctx b start).env, start]
      (exec ctx (.loop condition b span) env).env
  | _ => True

variable {ctx env}

/-- The arms of a switch are walked one by one and joined. -/
theorem alternatives_runArms (scrutinee : Expr) (arms : List Arm) (exhaustive : Bool) :
    Walk.alternatives exhaustive (runArms ctx (eval ctx scrutinee env).value arms)
        (eval ctx scrutinee env).env =
      { value := Walk.meetAll ((armOutcomes ctx env scrutinee arms).map Outcome.value)
        env := Walk.joinAll exhaustive (eval ctx scrutinee env).env
          ((armOutcomes ctx env scrutinee arms).map Outcome.env)
        log := (armOutcomes ctx env scrutinee arms).flatMap Outcome.log } := by
  have houtcomes : (runArms ctx (eval ctx scrutinee env).value arms).map
      (fun arm => arm (eval ctx scrutinee env).env) = armOutcomes ctx env scrutinee arms := by
    rw [Part.runArms_eq_map, List.map_map]
    rfl
  simp only [Walk.alternatives, houtcomes]

/-- Every arm evolves from the end of the scrutinee. -/
theorem armOutcomes_evolve {scrutinee : Expr} {arms : List Arm}
    (hf : (eval ctx scrutinee env).env.Fresh (Declaration.ids (Arm.listDeclarations arms))) :
    ∀ o ∈ (armOutcomes ctx env scrutinee arms).map Outcome.env,
      (eval ctx scrutinee env).env.Evolves [] (Arm.listAssigned arms) o := by
  intro o ho
  rw [armOutcomes, List.map_map] at ho
  obtain ⟨arm, harm, rfl⟩ := List.mem_map.1 ho
  refine runArms_evolves ctx arms (eval ctx scrutinee env).value hf _ ?_
  rw [Part.runArms_eq_map]
  exact List.mem_map_of_mem harm

/-- A switch whose variables are new joins its paths. -/
theorem switchJoins_of_fresh {scrutinee : Expr} {arms : List Arm}
    (hf : env.Fresh (Declaration.ids (scrutinee.declarations ++ Arm.listDeclarations arms))) :
    SwitchJoins ctx env scrutinee arms
      ((eval ctx scrutinee env).log ++ (armOutcomes ctx env scrutinee arms).flatMap Outcome.log)
      (Walk.joinAll (arms.any Arm.isDefault) (eval ctx scrutinee env).env
        ((armOutcomes ctx env scrutinee arms).map Outcome.env)) := by
  rw [Declaration.ids_append] at hf
  have hstep := eval_evolves ctx scrutinee env hf.left
  have hfresh := hstep.fresh hf
  have hsome : arms.any Arm.isDefault = true →
      (armOutcomes ctx env scrutinee arms).map Outcome.env ≠ [] := by
    intro hdefault hnil
    rw [List.map_eq_nil_iff, armOutcomes, List.map_eq_nil_iff] at hnil
    rw [hnil] at hdefault
    cases hdefault
  have hjoin := Env.joinAll_meetOf hfresh.nil (armOutcomes_evolve hfresh) hsome
  refine ⟨rfl, hjoin, fun id hid => ?_⟩
  rw [Env.ids_of_keys hjoin.scopes]
  exact hstep.mem_ids_of_mem hid

/-- **The paths through every part that branches meet**, if what the part declares is new. -/
theorem Part.joins_of_fresh {p : Part} (hf : env.Fresh (Declaration.ids p.declarations)) :
    p.Joins ctx env := by
  unfold Part.Joins
  split
  · next scrutinee arms span =>
    have hjoins : SwitchJoins ctx env scrutinee arms _ _ := switchJoins_of_fresh hf
    simp only [eval, Walk.bind_apply, Walk.pure_apply, alternatives_runArms, List.append_nil]
    refine ⟨hjoins, ?_⟩
    rw [Walk.meetAll_eq, List.filterMap_map, Function.id_comp]
    split <;> rfl
  · next scrutinee arms span =>
    have hjoins : SwitchJoins ctx env scrutinee arms _ _ := switchJoins_of_fresh hf
    simp only [exec, Walk.bind_apply, Walk.pure_apply, alternatives_runArms, List.append_nil]
    exact hjoins
  · next condition thenBranch elseBranch span =>
    rw [declarations, Stmt.declarations, List.append_assoc, Declaration.ids_append,
      Declaration.ids_append] at hf
    have hmeet := (eval_evolves ctx condition).inScope_fork_meetOf
      (execBlock_evolves ctx thenBranch) (execOption_evolves ctx elseBranch) hf
    rw [exec]
    cases elseBranch with
    | none => exact hmeet
    | some elseBranch => exact hmeet
  · next condition b span =>
    have hskip : Walk.Evolves [] [] (pure () : Walk Unit) := .of_still (.pure _)
    rw [declarations, Stmt.declarations, Declaration.ids_append,
      ← List.append_nil (Declaration.ids b.declarations)] at hf
    rw [exec]
    exact (eval_evolves ctx condition).inScope_fork_meetOf (execBlock_evolves ctx b) hskip hf
  · trivial

end Branching

end Closedness
