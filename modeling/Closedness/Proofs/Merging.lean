import Closedness.Proofs.Variables
import Closedness.Proofs.Weakening

/-!
# What joining paths does to mismatches

Where paths join, each variable takes the weaker of its levels, so code that runs after the join
knows less than it would on one of the paths. Weaker levels keep mismatches in sight, as long as
they say something. A value that has become unknown is another matter: an annotated variable vouches
for it, and a variable whose type is closed takes it for closed. `merging_keeps_mismatches` says
that nothing else hides a mismatch, and `merging_hides_mismatches` shows that both do.
-/

namespace Closedness

/-! ## Levels that say less -/

namespace ValueLevel

/-- The level with all levels that say something taken for one. -/
def blur : ValueLevel → ValueLevel
  | .level .closed => .level .bound
  | .inherited _ => .inherited .bound
  | l => l

/-- The second level says no more than the first. It is of the same kind, unless it is unverified
or, where that is allowed, unknown; and members are read through receivers of known level. -/
def Weaker (unknown : Bool) (l l' : ValueLevel) : Prop :=
  l.meet l' = l' ∧ (l = .null ↔ l' = .null) ∧ l ≠ .inherited .inherit ∧ l' ≠ .inherited .inherit ∧
    (l.blur = l'.blur ∨ l' = .unchecked ∨ unknown = true ∧ l' = .inherit)

instance (unknown : Bool) (l l' : ValueLevel) : Decidable (Weaker unknown l l') :=
  inferInstanceAs (Decidable (_ ∧ _))

/-- Paths join in null just when both give null. -/
theorem meet_eq_null {a b : ValueLevel} : a.meet b = .null ↔ a = .null ∧ b = .null := by
  rcases a with _ | _ | ⟨_ | _ | _⟩ | _ <;> rcases b with _ | _ | ⟨_ | _ | _⟩ | _ <;> simp [meet]

/-- Levels that say something can be taken for one before paths join. -/
theorem blur_meet (a b : ValueLevel) : (a.meet b).blur = a.blur.meet b.blur := by
  rcases a with _ | _ | ⟨_ | _ | _⟩ | _ <;> rcases b with _ | _ | ⟨_ | _ | _⟩ | _ <;> rfl

namespace Weaker

variable {unknown : Bool} {l l' : ValueLevel}

theorem of_settled (h : l.Settled) : Weaker unknown l l := by
  refine ⟨meet_self l, Iff.rfl, ?_, ?_, Or.inl rfl⟩ <;>
  · rintro rfl
    exact h

/-- The meet of two levels that variables hold is weaker than the first. -/
theorem meet_right {b : ValueLevel} (hl : l.Settled) (hb : b.Settled)
    (hunknown : l.meet b = .inherit → l = .inherit ∨ unknown = true) :
    Weaker unknown l (l.meet b) := by
  revert hunknown
  cases unknown <;> rcases l with _ | _ | ⟨_ | _ | _⟩ | _ <;>
    rcases b with _ | _ | ⟨_ | _ | _⟩ | _ <;> first | exact hl.elim | exact hb.elim | decide

/-- A path on which the value is unverified, or unknown, makes it so where the path is joined. -/
theorem meet_lost (h : l = .unchecked ∨ unknown = true ∧ l = .inherit) (b : ValueLevel) :
    l.meet b = .unchecked ∨ unknown = true ∧ l.meet b = .inherit := by
  obtain rfl | ⟨hunknown, rfl⟩ := h
  · exact Or.inl (by cases b <;> rfl)
  · cases b with
    | null => exact Or.inr ⟨hunknown, rfl⟩
    | unchecked => exact Or.inl rfl
    | level b => exact Or.inr ⟨hunknown, by cases b <;> rfl⟩
    | inherited r => exact Or.inr ⟨hunknown, rfl⟩

/-- Where paths join, levels that say no more give one that says no more. -/
theorem meet {a a' b b' : ValueLevel} (ha : Weaker unknown a a') (hb : Weaker unknown b b') :
    Weaker unknown (a.meet b) (a'.meet b') := by
  obtain ⟨ha, hanull, haknown, haknown', hakind⟩ := ha
  obtain ⟨hb, hbnull, hbknown, hbknown', hbkind⟩ := hb
  refine ⟨?_, ?_, Discipline.receivers.meet haknown hbknown,
    Discipline.receivers.meet haknown' hbknown', ?_⟩
  · calc (a.meet b).meet (a'.meet b')
        = (a.meet a').meet (b.meet b') := by
          rw [meet_assoc, meet_assoc, ← meet_assoc b, ← meet_assoc a' b, meet_comm b a']
      _ = a'.meet b' := by rw [ha, hb]
  · rw [meet_eq_null, meet_eq_null, hanull, hbnull]
  · obtain hakind | hakind := hakind
    · obtain hbkind | hbkind := hbkind
      · exact Or.inl (by rw [blur_meet, blur_meet, hakind, hbkind])
      · rw [meet_comm a' b']
        exact Or.inr (meet_lost hbkind a')
    · exact Or.inr (meet_lost hakind b')

-- there are eight levels, so what remains is gone through pair by pair

/-- A member that is read through a level that says no more says no more. -/
theorem inheritedFrom (h : Weaker unknown l l') :
    Weaker unknown l.inheritedFrom l'.inheritedFrom := by
  revert h
  cases unknown <;> rcases l with _ | _ | ⟨_ | _ | _⟩ | ⟨_ | _ | _⟩ <;>
    rcases l' with _ | _ | ⟨_ | _ | _⟩ | ⟨_ | _ | _⟩ <;> decide

/-- A pattern variable takes a level that says no more from a value that says no more. -/
theorem matched (h : Weaker unknown l l') : Weaker unknown l.matched l'.matched := by
  revert h
  cases unknown <;> rcases l with _ | _ | ⟨_ | _ | _⟩ | ⟨_ | _ | _⟩ <;>
    rcases l' with _ | _ | ⟨_ | _ | _⟩ | ⟨_ | _ | _⟩ <;> decide

end Weaker

/-- A bound value has become unknown, and the variable that it is given to takes it for closed, as
the variable's type says. -/
def Raised (given given' taken : ValueLevel) : Prop :=
  given = .level .bound ∧ given' = .inherit ∧ taken = .level .closed

namespace Weaker

variable {unknown : Bool} {l l' : ValueLevel}

/-- Storing keeps the order of levels, unless the variable's type raises an unknown value. -/
theorem plainLevel {ctx : Context} (h : Weaker unknown l l') (type : Option String)
    (hraised : unknown = true → ¬ l.Raised l' (ctx.plainLevel l' type)) :
    Weaker unknown (ctx.plainLevel l type) (ctx.plainLevel l' type) := by
  unfold Context.plainLevel Raised at *
  generalize ctx.model.explicitTypeLevel? type = t at *
  revert h hraised
  cases unknown <;> rcases l with _ | _ | ⟨_ | _ | _⟩ | ⟨_ | _ | _⟩ <;>
    rcases l' with _ | _ | ⟨_ | _ | _⟩ | ⟨_ | _ | _⟩ <;> rcases t with _ | ⟨_ | _ | _⟩ <;> decide

/-- A weaker value is a mismatch as well, or unverified, or an annotated variable vouches for it. -/
theorem mismatch {r : Level} {site : Site} (h : Weaker unknown l l')
    (hl : (judge r l site).isMismatch) :
    (judge r l' site).isMismatch ∨ judge r l' site = .unchecked ∨
      unknown = true ∧ site = .declaration ∧ l' = .inherit := by
  revert h hl
  cases unknown <;> rcases l with _ | _ | ⟨_ | _ | _⟩ | ⟨_ | _ | _⟩ <;>
    rcases l' with _ | _ | ⟨_ | _ | _⟩ | ⟨_ | _ | _⟩ <;> cases r <;> cases site <;> decide

end Weaker

end ValueLevel

/-! ## Joining paths -/

/-- An annotated variable vouches for a value of which nothing is known. -/
def Judgement.Vouched (j : Judgement) : Prop :=
  j.site = .declaration ∧ j.value = .inherit

/-- The weakening of levels, which may become unknown if that is allowed. -/
def Weakening.ofWeaker {ctx : Context} (hself : ∀ {l}, ctx.self = some l → l.Settled)
    (unknown : Bool) : Weakening ctx where
  level := ValueLevel.Weaker unknown
  excused j := unknown = true ∧ j.Vouched
  stored given given' taken := unknown = true → ¬ given.Raised given' taken
  null := by cases unknown <;> decide
  unchecked := .of_settled (l := .unchecked) trivial
  ofLevel l := .of_settled (l := .level l) trivial
  self h := .of_settled (hself h)
  meet := .meet
  inheritedFrom := .inheritedFrom
  matched := .matched
  plainLevel type h := h.plainLevel type
  judged h := ⟨rfl, rfl, rfl, h.mismatch⟩

theorem VarState.Sound.level_settled {s : VarState} (h : s.Sound) : s.level.Settled := by
  obtain hlevel | ⟨l, hlevel⟩ := h.settled
  · rw [hlevel]
    trivial
  · rw [hlevel]
    trivial

/-- Joining the other path leaves no variable unknown that was known before. -/
def Env.StaysKnown (env other : Env) : Prop :=
  ∀ frame ∈ env.frames, ∀ e ∈ frame.entries,
    (other.join e.1 e.2).level = .inherit → e.2.level = .inherit

instance (env other : Env) : Decidable (env.StaysKnown other) :=
  inferInstanceAs (Decidable (∀ frame ∈ env.frames, ∀ e ∈ frame.entries, _ → _))

/-- An environment that another path joins is weaker. -/
theorem Weakening.envs_merge {ctx : Context} {hself : ∀ {l}, ctx.self = some l → l.Settled}
    {unknown : Bool} {env other : Env} (henv : env.All VarState.Sound)
    (hother : other.All VarState.Sound) (hknown : unknown = true ∨ env.StaysKnown other) :
    (Weakening.ofWeaker hself unknown).Envs env (env.merge other) := by
  refine .merge_right fun frame hframe e he => ?_
  have hs : e.2.level.Settled := (henv frame hframe e he).level_settled
  have hknown : (other.join e.1 e.2).level = .inherit → e.2.level = .inherit ∨ unknown = true :=
    fun h => hknown.symm.imp_left fun hstays => hstays frame hframe e he h
  unfold Env.join Env.level? at hknown ⊢
  cases hget : other.get? e.1 with
  | none => exact ⟨ValueLevel.Weaker.of_settled hs, rfl, rfl, rfl⟩
  | some t =>
    have ht : t.level.Settled := (hother.of_get? hget).level_settled
    simp only [hget, Option.map_some] at hknown ⊢
    exact ⟨ValueLevel.Weaker.meet_right hs ht hknown, rfl, rfl, rfl⟩

/-- A local that its initialiser leaves without pin is unverified or has the level that an
assignment would give it. -/
theorem Context.level_initialState {ctx : Context} {decl : LocalDecl} {resolution : Resolution}
    {init : Expr} {value : ValueLevel} {env : Env}
    (h : (ctx.initialState decl resolution init value env).pinned = none) :
    (ctx.initialState decl resolution init value env).level = .unchecked ∨
      ∃ type, (ctx.initialState decl resolution init value env).level =
        ctx.plainLevel value type := by
  unfold initialState at h ⊢
  split at h
  · exact Or.inl rfl
  · exact Or.inr ⟨_, rfl⟩
  · exact Or.inr ⟨_, rfl⟩
  · split at h
    · cases h
    · next hkeep => exact Or.inr ⟨_, by simp only [hkeep]; rfl⟩

/-- Where no type is closed, no variable takes a value for closed because of its type. -/
theorem Part.stores_of_types {ctx : Context} (h : ∀ name, ctx.model.typeLevel name ≠ .closed)
    (p : Part) (env env' : Env) :
    p.Stores ctx (fun given given' taken => ¬ given.Raised given' taken) env env' := by
  have hplain : ∀ type, ctx.plainLevel .inherit type ≠ .level .closed := by
    intro type htaken
    simp only [Context.plainLevel, ValueLevel.stored] at htaken
    split at htaken
    · next l hl =>
      obtain ⟨hl, -⟩ := Option.filter_eq_some_iff.1 hl
      obtain ⟨name, -, hname⟩ := Option.map_eq_some_iff.1 hl
      exact h name (hname.trans (ValueLevel.level.inj htaken))
    · cases htaken
  unfold Part.Stores
  split
  · rintro _ _ s - - ⟨-, hgiven, htaken⟩
    rw [hgiven] at htaken
    exact hplain _ htaken
  · rintro _ _ state hpinned ⟨-, hgiven, htaken⟩
    obtain hlevel | ⟨type, hlevel⟩ := Context.level_initialState hpinned
    · cases htaken.symm.trans hlevel
    · refine hplain type ?_
      rw [← hgiven]
      exact hlevel.symm.trans htaken
  · trivial

/-- The object whose method runs has a settled level. -/
theorem Config.context_self_settled (config : Config) (u : CompilationUnit) (m : Method)
    {l : ValueLevel} (h : (config.context u m).self = some l) : l.Settled := by
  obtain ⟨t, -, rfl⟩ := Option.map_eq_some_iff.1 h
  trivial

/-- **Joining paths hides a mismatch only behind a value that has become unknown.** Statements that
run from an environment, and from that environment joined by another path, judge the same positions
in the same order, and complain just about these. If the join leaves every known variable known,
each mismatch of the first run is a mismatch of the second, or the value is unverified there. In any
case that holds but for unknown values that an annotated variable vouches for, as long as no
variable is given a bound value by the first run, and by the second an unknown one that it takes for
closed because of its type. -/
theorem merging_keeps_mismatches (config : Config) (u : CompilationUnit) (m : Method)
    (stmts : List Stmt) {env other : Env} (henv : env.All VarState.Sound)
    (hother : other.All VarState.Sound) :
    let ctx := config.context u m
    let log := (execAll ctx stmts env).log
    let log' := (execAll ctx stmts (env.merge other)).log
    Event.Complains log ∧ Event.Complains log' ∧
      (env.StaysKnown other →
        List.Forall₂ (Judgement.Follows fun _ => False) (Event.judgements log)
          (Event.judgements log')) ∧
      ((∀ p e e', Reaches ctx (.stmts stmts) env p e →
          Reaches ctx (.stmts stmts) (env.merge other) p e' →
          p.Stores ctx (fun given given' taken => ¬ given.Raised given' taken) e e') →
        List.Forall₂ (Judgement.Follows Judgement.Vouched) (Event.judgements log)
          (Event.judgements log')) := by
  have hself : ∀ {l}, (config.context u m).self = some l → l.Settled :=
    config.context_self_settled u m
  refine ⟨execAll_complains .., execAll_complains .., fun hknown => ?_, fun hstored => ?_⟩
  · have hstart : (Weakening.ofWeaker hself false).Envs env (env.merge other) :=
      Weakening.envs_merge henv hother (Or.inr hknown)
    have hsteady : (Weakening.ofWeaker hself false).Steady (.stmts stmts) (.stmts stmts) env
        (env.merge other) :=
      fun p e e' _ _ => (p.stores_true _ e e').imp fun _ _ _ _ h => nomatch h
    have hfollows := (Weakening.execAll_weakens stmts hstart hsteady).log.follows
    exact hfollows.imp fun j j' h => h.imp fun _ hexcused => nomatch hexcused.1
  · have hstart : (Weakening.ofWeaker hself true).Envs env (env.merge other) :=
      Weakening.envs_merge henv hother (Or.inl rfl)
    have hsteady : (Weakening.ofWeaker hself true).Steady (.stmts stmts) (.stmts stmts) env
        (env.merge other) := by
      intro p e e' hp hp'
      exact (hstored p e e' hp hp').imp fun _ _ _ h _ => h
    have hfollows := (Weakening.execAll_weakens stmts hstart hsteady).log.follows
    exact hfollows.imp fun j j' h => h.imp fun _ hexcused => hexcused.2

/-! ## A variable that is given another value in a branch -/

namespace Hiding

/-- `var y = b;` -/
def first : Stmt :=
  .declare { id := ⟨5⟩, name := "y", type := none, annots := [], span := .spot 5 }
    (some (.var ⟨1⟩ (.spot 5))) (.spot 5)

/-- `y = …;` -/
def changed (value : DeclId) : Block :=
  .mk [.expr (.assign ⟨5⟩ (.var value (.spot 7)) (.spot 7)) (.spot 7)] (.spot 7)

/-- `if (c) { y = …; }` -/
def branch (value : DeclId) : Stmt :=
  .ifElse (.var ⟨4⟩ (.spot 6)) (changed value) none (.spot 6)

/-- `m(@Bound Box b, Box x, @NoInherit Box n, boolean c) { var y = b; if (c) { y = …; } … }`, which
has to return a closed value. -/
def method (value : DeclId) (rest : List Stmt) : Method :=
  let marker (name : String) : Annot := { name, span := .spot 0 }
  let param (id : UInt32) (type : String) (annots : List Annot) : Param :=
    { id := ⟨id⟩, name := "p", type, annots, isVarargs := false, span := .spot 0 }
  { id := ⟨0⟩
    name := "m"
    isStatic := true
    annots := [marker "Closed"]
    returnType := some "Leaf"
    params := [param 1 "Box" [marker "Bound"], param 2 "Box" [],
      param 3 "Box" [marker "NoInherit"], param 4 "boolean" []]
    body := some (.mk (first :: branch value :: rest) (.spot 0))
    span := .spot 0 }

/-- The unit that declares the method. -/
def unit (types : List TypeDecl) (value : DeclId) (rest : List Stmt) : CompilationUnit :=
  { name := "hiding", types, methods := [method value rest] }

/-- The context in which the method is walked. -/
def context (types : List TypeDecl) (value : DeclId) (rest : List Stmt) : Context :=
  ({} : Config).context (unit types value rest) (method value rest)

/-- Where the branch is passed by. -/
def skipped (types : List TypeDecl) (value : DeclId) (rest : List Stmt) : Env :=
  (exec (context types value rest) first
    (Env.ofParams (context types value rest).model (method value rest).params)).env

/-- Where the branch is taken. -/
def taken (types : List TypeDecl) (value : DeclId) (rest : List Stmt) : Env :=
  (execBlock (context types value rest) (changed value) (skipped types value rest)).env

theorem sound (types : List TypeDecl) (value : DeclId) (rest : List Stmt)
    (hu : (unit types value rest).validate = .ok (unit types value rest)) :
    (skipped types value rest).All VarState.Sound ∧
      (taken types value rest).All VarState.Sound := by
  have hD := Discipline.receivers_allows ({} : Config).names (unit types value rest).declarations
  have hm : method value rest ∈ (unit types value rest).allMethods :=
    List.mem_append_right _ List.mem_cons_self
  have hstart : Reached (context types value rest) (method value rest) _ _ := .start rfl
  have hskipped := ((hstart.enter .restStmts).point hu hD hm).1
  have hblock : Point Discipline.receivers (context types value rest)
      (Part.block (changed value)).declarations (skipped types value rest) :=
    hskipped.sublist (List.nil_sublist _)
  exact ⟨hskipped.sound, (hblock.run (Discipline.within_context hD _) trivial).1.sound⟩

/-- `@Closed Box z = y;` -/
def vouched : Stmt :=
  .declare
    { id := ⟨8⟩, name := "z", type := some "Box", annots := [{ name := "Closed", span := .spot 8 }],
      span := .spot 8 }
    (some (.var ⟨5⟩ (.spot 8))) (.spot 8)

/-- `return y;` -/
def returned : Stmt :=
  .ret (some (.var ⟨5⟩ (.spot 9))) (.spot 9)

/-- `@Closed singleton Leaf` and `record Box(Leaf leaf)` -/
def types : List TypeDecl :=
  let type (id : UInt32) (name : String) (annots : List Annot) (shape : TypeShape) : TypeDecl :=
    { id := ⟨id⟩, name, annots, shape, supertypes := [], methods := [], span := .spot 0 }
  [type 20 "Leaf" [{ name := "Closed", span := .spot 0 }] .singleton,
    type 21 "Box" []
      (.record [{ id := ⟨22⟩, name := "leaf", type := "Leaf", annots := [], span := .spot 0 }])]

/-- `if (y instanceof Box(var v)) { Leaf w = v; return w; }` -/
def raised : Stmt :=
  .ifElse
    (.instanceOf (.var ⟨5⟩ (.spot 10))
      (.record ⟨21⟩
        [.variable { id := ⟨10⟩, name := "v", annots := [], span := .spot 10 } (.spot 10)]
        (.spot 10))
      (.spot 10))
    (.mk [
      .declare { id := ⟨11⟩, name := "w", type := some "Leaf", annots := [], span := .spot 11 }
        (some (.var ⟨10⟩ (.spot 11))) (.spot 11),
      .ret (some (.var ⟨11⟩ (.spot 12))) (.spot 12)] (.spot 11))
    none (.spot 10)

/-- The rest of the body in which only the annotation hides something. -/
def returning : List Stmt :=
  [vouched, returned]

/-- The rest of the body in which a type hides something, too. -/
def raising : List Stmt :=
  [vouched, raised]

/-- What the rest of the body judges where the branch is passed by, in a unit without types. -/
def judgedBefore (value : DeclId) : List Judgement :=
  Event.judgements (execAll (context [] value returning) returning (skipped [] value returning)).log

/-- What it judges after the branch has joined. -/
def judgedAfter (value : DeclId) : List Judgement :=
  Event.judgements (execAll (context [] value returning) returning
    ((skipped [] value returning).merge (taken [] value returning))).log

end Hiding

/-- Where the branch is passed by, both the annotated variable and the returned value are
mismatches. After an unknown value has joined, the variable vouches for it and the returned value is
a mismatch still; after an unverified value has joined, both are unverified. -/
theorem merging_keeps_mismatches_returning :
    (Hiding.judgedBefore ⟨2⟩).map Judgement.verdict = [.mismatch .bound, .mismatch .bound] ∧
      (Hiding.judgedAfter ⟨2⟩).map Judgement.verdict = [.pass, .mismatch .bound] ∧
      List.Forall₂ (Judgement.Follows Judgement.Vouched) (Hiding.judgedBefore ⟨2⟩)
        (Hiding.judgedAfter ⟨2⟩) ∧
      (Hiding.judgedAfter ⟨3⟩).map Judgement.verdict = [.unchecked, .unchecked] ∧
      List.Forall₂ (Judgement.Follows fun _ => False) (Hiding.judgedBefore ⟨3⟩)
        (Hiding.judgedAfter ⟨3⟩) := by
  have htypes : ∀ name, (Hiding.context [] ⟨2⟩ Hiding.returning).model.typeLevel name ≠ .closed :=
    fun _ => nofun
  have hunknown := Hiding.sound [] ⟨2⟩ Hiding.returning rfl
  have hunverified := Hiding.sound [] ⟨3⟩ Hiding.returning rfl
  obtain ⟨-, -, -, hvouched⟩ := merging_keeps_mismatches {} (Hiding.unit [] ⟨2⟩ Hiding.returning)
    (Hiding.method ⟨2⟩ Hiding.returning) Hiding.returning hunknown.1 hunknown.2
  obtain ⟨-, -, hknown, -⟩ := merging_keeps_mismatches {} (Hiding.unit [] ⟨3⟩ Hiding.returning)
    (Hiding.method ⟨3⟩ Hiding.returning) Hiding.returning hunverified.1 hunverified.2
  refine ⟨by decide, by decide, hvouched ?_, by decide, hknown (by decide)⟩
  exact fun p e e' _ _ => p.stores_of_types htypes e e'

/-- **Joining a path can hide a mismatch**, behind an annotated variable and behind a type. Where
the branch is passed by, `y` is bound, and both `z` and the returned value are mismatches. After the
branch `y` is unknown: the annotation of `z` vouches for it, and `w` takes the closed level of its
type. Nothing is found. -/
theorem merging_hides_mismatches :
    let rest := Hiding.raising
    let u := Hiding.unit Hiding.types ⟨2⟩ rest
    let ctx := Hiding.context Hiding.types ⟨2⟩ rest
    let skipped := Hiding.skipped Hiding.types ⟨2⟩ rest
    let taken := Hiding.taken Hiding.types ⟨2⟩ rest
    u.validate = .ok u ∧
      (Hiding.method ⟨2⟩ rest).body =
        some (.mk (Hiding.first :: Hiding.branch ⟨2⟩ :: rest) (.spot 0)) ∧
      skipped.All VarState.Sound ∧ taken.All VarState.Sound ∧
      skipped.frames.map (Table.map fun _ s => { s with level := .inherit }) =
        taken.frames.map (Table.map fun _ s => { s with level := .inherit }) ∧
      (exec ctx (Hiding.branch ⟨2⟩) skipped).env = skipped.merge taken ∧
      Event.diagnostics (execAll ctx rest skipped).log =
        [.levelMismatch (.spot 8) .closed .bound, .levelMismatch (.spot 12) .closed .bound] ∧
      Event.diagnostics (execAll ctx rest (skipped.merge taken)).log = [] := by
  have hsound := Hiding.sound Hiding.types ⟨2⟩ Hiding.raising rfl
  refine ⟨rfl, rfl, hsound.1, hsound.2, ?_, ?_, ?_, ?_⟩ <;> decide

end Closedness
