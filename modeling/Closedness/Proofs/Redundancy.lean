import Closedness.Proofs.Independence
import Closedness.Proofs.Lockstep

/-!
# Removing redundant annotations

The annotation of a local is found redundant if it asks for the level that the value of the
initialiser has already. Without it the local takes the level of that value like any other variable,
which may be another level: a variable does not remember the receiver that its value was read
through, so that the value counts as unknown, or as its type says.

For a local that is found to be bound this makes no mismatch. An unknown value counts as bound where
a level is required, so the local is still found too weak just where it was, if at all, and so is
what is read out of it (`ValueLevel.NoWorse`). A local that is found to be closed, however, has to
stay closed. It does unless its value is a member of a closed receiver and its type is not closed by
itself (`redundant_marker_removable`, `redundant_marker_needed`).
-/

namespace Closedness

/-! ## Levels that find no new mismatch -/

namespace ValueLevel

/-- The second level is a mismatch only where the first is the same mismatch, and so is what is read
out of it or joined with it. -/
inductive NoWorse : ValueLevel → ValueLevel → Prop
  | same {l} (h : l ≠ .inherited .inherit) : NoWorse l l
  /-- What nothing is known of counts as bound, if at all. -/
  | unknown : NoWorse (.level .bound) .inherit
  | unknownMember : NoWorse (.inherited .bound) .inherit
  | stronger : NoWorse (.level .bound) (.level .closed)
  | strongerMember : NoWorse (.inherited .bound) (.inherited .closed)

namespace NoWorse

variable {a b c l l' : ValueLevel}

/-- Any level is no worse than bound. -/
theorem of_bound (level : Level) : NoWorse (.level .bound) (.level level) := by
  cases level with
  | inherit => exact .unknown
  | bound => exact .same nofun
  | closed => exact .stronger

/-- What is stored for an unknown value is no worse than bound. -/
theorem bound_unknown (ctx : Context) (type : Option String) :
    NoWorse (.level .bound) (ctx.plainLevel .inherit type) := by
  unfold Context.plainLevel
  simp only [stored]
  split <;> exact of_bound _

/-- A variable that is given a bound value is no worse than bound. -/
theorem bound_stored (ctx : Context) (hl : l.explicit? = some .bound) (type : Option String) :
    NoWorse (.level .bound) (ctx.plainLevel l type) := by
  match l, hl with
  | .level .bound, _ => exact .same nofun
  | .inherited .bound, _ => exact bound_unknown ctx type

/-- Nothing gets worse in two steps. -/
theorem trans (h : NoWorse a b) (h' : NoWorse b c) : NoWorse a c := by
  cases h with
  | same => exact h'
  | unknown => cases h' with | same => exact .unknown
  | unknownMember => cases h' with | same => exact .unknownMember
  | stronger => cases h' with | same => exact .stronger
  | strongerMember => cases h' with | same => exact .strongerMember

theorem ne_left (h : NoWorse a b) : a ≠ .inherited .inherit := by
  cases h with
  | same h => exact h
  | unknown | unknownMember | stronger | strongerMember => exact nofun

theorem ne_right (h : NoWorse a b) : b ≠ .inherited .inherit := by
  cases h with
  | same h => exact h
  | unknown | unknownMember | stronger | strongerMember => exact nofun

theorem meet_right (h : NoWorse a b) (hc : c ≠ .inherited .inherit) :
    NoWorse (a.meet c) (b.meet c) := by
  cases h with
  | same h => exact .same (Discipline.receivers.meet h hc)
  | unknown | unknownMember | stronger | strongerMember =>
    rcases c with _ | _ | ⟨_ | _ | _⟩ | ⟨_ | _ | _⟩ <;>
      first
      | exact absurd rfl hc
      | exact .same (by rintro ⟨⟩)
      | exact .unknown
      | exact .unknownMember
      | exact .stronger
      | exact .strongerMember

/-- Joining keeps the order. -/
theorem meet {a' b' : ValueLevel} (ha : NoWorse a a') (hb : NoWorse b b') :
    NoWorse (a.meet b) (a'.meet b') := by
  have hleft : NoWorse (a.meet b) (a'.meet b) := ha.meet_right hb.ne_left
  have hright : NoWorse (b.meet a') (b'.meet a') := hb.meet_right ha.ne_right
  rw [meet_comm b, meet_comm b'] at hright
  exact hleft.trans hright

/-- A member is no worse when read through a receiver that is no worse. -/
theorem inheritedFrom (h : NoWorse l l') : NoWorse l.inheritedFrom l'.inheritedFrom := by
  cases h with
  | same h => exact .same (Discipline.receivers.inheritedFrom h)
  | unknown | unknownMember => exact .unknownMember
  | stronger | strongerMember => exact .strongerMember

/-- A pattern variable takes a level that is no worse from a value that is no worse. -/
theorem matched (h : NoWorse l l') : NoWorse l.matched l'.matched := by
  cases h with
  | same h => exact .same (Discipline.receivers.matched h)
  | unknown | unknownMember => exact .unknown
  | stronger | strongerMember => exact .stronger

/-- Storing keeps the order, whatever the type of the variable. -/
theorem plainLevel (h : NoWorse l l') (ctx : Context) (type : Option String) :
    NoWorse (ctx.plainLevel l type) (ctx.plainLevel l' type) := by
  have hsame : ∀ l, NoWorse (ctx.plainLevel l type) (ctx.plainLevel l type) := by
    intro l
    refine .same fun heq => ?_
    have hsettled := Discipline.plainLevel_settled ctx l type
    rw [heq] at hsettled
    exact hsettled
  cases h with
  | same | unknownMember | strongerMember => exact hsame _
  | unknown => exact bound_unknown ctx type
  | stronger => exact .stronger

/-- A mismatch of the second level is the same mismatch of the first. -/
theorem mismatch {r actual : Level} {site : Site} (h : NoWorse l l')
    (hmismatch : judge r l' site = .mismatch actual) : judge r l site = .mismatch actual := by
  cases h with
  | same => exact hmismatch
  | unknown | unknownMember | stronger | strongerMember =>
    cases r <;> cases site <;> first | exact hmismatch | cases hmismatch

end NoWorse

end ValueLevel

/-! ## Logs that find no new mismatch -/

namespace Event

/-- The mismatches that a log has found, in order. -/
def mismatches (log : List Event) : List Diagnostic :=
  (diagnostics log).filter fun d => d.kind = .levelMismatch

theorem mismatches_append (a b : List Event) :
    mismatches (a ++ b) = mismatches a ++ mismatches b := by
  simp only [mismatches, diagnostics, List.filterMap_append, List.filter_append]

theorem Silent.mismatches {log : List Event} (h : Silent log) : mismatches log = [] := by
  refine List.filter_eq_nil_iff.2 fun d hd hkind => ?_
  have hcomplaint : d.kind.isComplaint = true := by
    rw [of_decide_eq_true hkind]
    rfl
  exact List.filter_eq_nil_iff.1 h.complaints d hd hcomplaint

theorem mismatches_judgementLog (options : Options) (required : Level) (value : ValueLevel)
    (site : Site) (span : Span) :
    mismatches (judgementLog options required value site span) =
      match judge required value site with
      | .mismatch actual => [.levelMismatch span required actual]
      | _ => [] := by
  unfold judgementLog
  cases judge required value site with
  | pass => rfl
  | mismatch actual => rfl
  | unchecked => rfl
  | cast actual =>
    have hsilent : Silent (options.finding (.smartCast span required actual)) :=
      .finding options rfl
    simp only [Verdict.diagnostic?, Option.toList_some, List.flatMap_singleton]
    exact hsilent.mismatches

/-- The second log finds no mismatch that the first does not. -/
def NoneNew (log log' : List Event) : Prop :=
  (mismatches log').Sublist (mismatches log)

namespace NoneNew

/-- Logs one after the other find nothing new when each of them does not. -/
theorem append {a a' b b' : List Event} (ha : NoneNew a a') (hb : NoneNew b b') :
    NoneNew (a ++ b) (a' ++ b') := by
  unfold NoneNew
  rw [mismatches_append, mismatches_append]
  exact List.Sublist.append ha hb

theorem of_silent (log : List Event) {log' : List Event} (h : Silent log') : NoneNew log log' := by
  unfold NoneNew
  rw [h.mismatches]
  exact List.nil_sublist _

/-- Judging a level that is no worse finds no new mismatch. -/
theorem judgementLog {l l' : ValueLevel} (h : l.NoWorse l') (options : Options) (required : Level)
    (site : Site) (span : Span) :
    NoneNew (Closedness.judgementLog options required l site span)
      (Closedness.judgementLog options required l' site span) := by
  unfold NoneNew
  rw [mismatches_judgementLog, mismatches_judgementLog]
  cases hverdict : judge required l' site with
  | mismatch actual => rw [h.mismatch hverdict]
  | pass | cast | unchecked => exact List.nil_sublist _

/-- The same at a position that may ask for nothing. -/
theorem positionLog {l l' : ValueLevel} (h : l.NoWorse l') (options : Options)
    (required : Option Level) (site : Site) (span : Span) :
    NoneNew (Closedness.positionLog options required l site span)
      (Closedness.positionLog options required l' site span) := by
  cases required with
  | none => exact .of_silent _ .nil
  | some r => exact .judgementLog h options r site span

theorem initialLog {l l' : ValueLevel} (h : l.NoWorse l') (ctx : Context) (decl : LocalDecl)
    (resolution : Resolution) (init : Expr) (env env' : Env) :
    NoneNew (ctx.initialLog decl resolution init l env)
      (ctx.initialLog decl resolution init l' env') := by
  have hdropped : ∀ level, Silent (if init.keepsMarker ctx env' decl.type then []
      else [.noted (.markerDropped decl.name level)]) := by
    intro level
    split <;> exact ⟨rfl, rfl⟩
  refine .append ?_ (.of_silent _ ⟨rfl, rfl⟩)
  cases resolution.binding.bind Binding.explicit? with
  | none => exact .of_silent _ .nil
  | some level =>
    refine .append (.append (.judgementLog h ..) (.of_silent _ (.redundancyLog ..))) ?_
    exact .of_silent _ (hdropped level)

end NoneNew

end Event

/-! ## Redundant annotations -/

/-- Takes the markers off one variable. -/
def Names.unmark (names : Names) (id : DeclId) : Reannotation := fun other annots =>
  if other = id then annots.filter fun a => (names.marker? a).isNone else annots

/-- The unit without the markers on one of the variables in the body of a method. -/
def CompilationUnit.unmark (u : CompilationUnit) (names : Names) (m : Method) (id : DeclId) :
    CompilationUnit :=
  u.withBody m.id (Block.reannotateOption (names.unmark id) m.body)

/-- Without its marker, a variable asks for nothing. -/
theorem Names.resolve_unmark (names : Names) (id : DeclId) (annots : List Annot) :
    names.resolve (names.unmark id id annots) = {} := by
  have hmarked : names.marked (names.unmark id id annots) = [] := by
    rw [Names.unmark, if_pos rfl]
    refine List.filterMap_eq_nil_iff.2 fun a ha => ?_
    rw [Option.map_eq_none_iff]
    simpa using (List.mem_filter.1 ha).2
  rw [resolve, hmarked]

/-- A local with an initialiser, one marker and no assignments, whose marker is found to say what is
known of its value: it asks for `l`. -/
structure RedundantLocal (ctx : Context) (m : Method) (decl : LocalDecl) (init : Expr)
    (span : Span) (env : Env) (l : Level) : Prop where
  reached : Reached ctx m (.stmt (.declare decl (some init) span)) env
  marked : ∃ marker a, ctx.names.marked decl.annots = [(marker, a)] ∧
    .found (.redundantMarker a.span l) ∈
      ctx.initialLog decl (ctx.names.resolve decl.annots) init (eval ctx init env).value.level
        (eval ctx init env).env
  unassigned : decl.id ∉ Block.optionAssigned m.body

/-- A local that keeps its annotation would be closed without it: its value is closed by itself, or
is forgotten to be a member of a closed receiver, and its type is closed. -/
def RemainsClosed (ctx : Context) (decl : LocalDecl) (init : Expr) (env : Env) : Prop :=
  let given := eval ctx init env
  init.keepsMarker ctx given.env decl.type →
    ctx.plainLevel given.value.level (decl.type.or (init.staticType? ctx given.env)) =
      .level .closed

theorem Options.eq_of_mem_finding {options : Options} {d d' : Diagnostic}
    (h : .found d ∈ options.finding d') : d = d' := by
  unfold finding at h
  split at h
  · exact Event.found.inj (List.mem_singleton.1 h)
  · cases h

theorem kind_of_mem_judgementLog {options : Options} {required : Level} {value : ValueLevel}
    {site : Site} {span : Span} {d : Diagnostic}
    (h : .found d ∈ judgementLog options required value site span) : d.kind ≠ .redundantMarker := by
  obtain h | h := List.mem_cons.1 h
  · cases h
  · obtain ⟨d', hd', hfound⟩ := List.mem_flatMap.1 h
    rw [Options.eq_of_mem_finding hfound]
    rw [Option.mem_toList] at hd'
    generalize judge required value site = verdict at hd'
    cases verdict <;> cases hd' <;> exact nofun

/-- A marker is redundant only if the value says the same by itself. -/
theorem of_mem_redundancyLog {options : Options} {annotated l : Level} {value : ValueLevel}
    {at? : Option Span} {span : Span}
    (h : .found (.redundantMarker span l) ∈ redundancyLog options annotated value at?) :
    annotated = l ∧ value.explicit? = some annotated := by
  unfold redundancyLog at h
  split at h
  · split at h
    · next hvalue =>
      have hrequired := congrArg Diagnostic.required (Options.eq_of_mem_finding h)
      exact ⟨(Option.some.inj hrequired).symm, hvalue⟩
    · cases h
  · cases h

/-- An annotation is found redundant only for the level that it asks for and that the value has. -/
theorem of_mem_initialLog {ctx : Context} {decl : LocalDecl} {resolution : Resolution}
    {init : Expr} {value : ValueLevel} {env : Env} {span : Span} {l : Level}
    (h : .found (.redundantMarker span l) ∈ ctx.initialLog decl resolution init value env) :
    resolution.binding = some (.level l) ∧ value.explicit? = some l := by
  unfold Context.initialLog at h
  cases hbinding : resolution.binding.bind Binding.explicit? with
  | none => simp [hbinding] at h
  | some annotated =>
    simp only [hbinding, List.mem_append] at h
    obtain ((h | h) | h) | h := h
    · exact absurd rfl (kind_of_mem_judgementLog h)
    · obtain ⟨rfl, hvalue⟩ := of_mem_redundancyLog h
      obtain ⟨b, hb, hexplicit⟩ := Option.bind_eq_some_iff.1 hbinding
      obtain ⟨rfl, -⟩ := Discipline.explicit?_eq_some hexplicit
      exact ⟨hb, hvalue⟩
    · split at h <;> simp at h
    · simp at h

section Unmarked

variable {config : Config} {u : CompilationUnit} {m : Method} {decl : LocalDecl} {init : Expr}
  {span : Span} {env : Env} {l : Level}

/-- The walks with and without the markers on `decl`: levels are no worse without, and only the
variable itself may lose its pin. -/
structure UnmarkedState (unmarked id : DeclId) (s s' : VarState) : Prop where
  level : s.level.NoWorse s'.level
  pinned : id ≠ unmarked → s'.pinned = s.pinned
  type : s'.type = s.type

/-- Levels that find no new mismatch, as they go through the operations on levels. -/
def Weakening.noWorse (config : Config) (u : CompilationUnit) (m : Method) :
    Weakening (config.context u m) where
  level := ValueLevel.NoWorse
  excused _ := True
  stored _ _ _ := True
  null := .same nofun
  unchecked := .same nofun
  ofLevel _ := .same nofun
  self h := .same ((Discipline.within_context
    (Discipline.receivers_allows config.names u.declarations) m).self h)
  meet := .meet
  inheritedFrom := .inheritedFrom
  matched := .matched
  plainLevel type h _ := h.plainLevel _ type
  judged _ := ⟨rfl, rfl, rfl, fun _ => Or.inr (Or.inr trivial)⟩

/-- Without its annotation, the local starts at a level that is no worse. -/
theorem RedundantLocal.initialState {ctx : Context} (h : RedundantLocal ctx m decl init span env l)
    (hclosed : l = .closed → RemainsClosed ctx decl init env)
    {env' : Env} {l' : ValueLevel} {S : StateRel}
    (htype : ∀ {id s s'}, S id s s' → s'.type = s.type)
    (henv : Env.Rel S (eval ctx init env).env env')
    (hl : (eval ctx init env).value.level.NoWorse l') :
    UnmarkedState decl.id decl.id
      (ctx.initialState decl (ctx.names.resolve decl.annots) init (eval ctx init env).value.level
        (eval ctx init env).env)
      (ctx.initialState decl {} init l' env') := by
  obtain ⟨marker, a, -, hhint⟩ := h.marked
  obtain ⟨hbinding, hvalue⟩ := of_mem_initialLog hhint
  unfold RemainsClosed at hclosed
  unfold Context.initialState
  rw [henv.staticType?_eq htype, hbinding]
  have hplain := hl.plainLevel ctx (decl.type.or (init.staticType? ctx (eval ctx init env).env))
  cases l with
  | inherit => exact ⟨hplain, absurd rfl, rfl⟩
  | bound =>
    dsimp only
    split
    · exact ⟨(ValueLevel.NoWorse.bound_stored ctx hvalue _).trans hplain, absurd rfl, rfl⟩
    · exact ⟨hplain, absurd rfl, rfl⟩
  | closed =>
    dsimp only
    split
    · next hkeeps =>
      rw [hclosed rfl hkeeps] at hplain
      exact ⟨hplain, absurd rfl, rfl⟩
    · exact ⟨hplain, absurd rfl, rfl⟩

/-- The walks through a body with and without the redundant annotation. -/
def Lockstep.unmarked (hu : u.validate = .ok u) (hm : m ∈ u.allMethods)
    (h : RedundantLocal (config.context u m) m decl init span env l)
    (hclosed : l = .closed → RemainsClosed (config.context u m) decl init env) :
    Lockstep (config.context u m) (config.names.unmark decl.id) where
  levels := .noWorse config u m
  state := UnmarkedState decl.id
  log := Event.NoneNew
  visits := Reached (config.context u m) m
  enter := .enter
  read hs := hs.level
  set hs hl := ⟨hl, hs.pinned, hs.type⟩
  nil := .of_silent _ .nil
  append := .append
  position required span hl := .positionLog hl _ required .strict span
  narrowing declared span _ := .of_silent _ (.narrowingLog _ declared _ span)
  pinned {target value span env s s'} ha hs := by
    refine hs.pinned ?_
    rintro rfl
    exact h.unassigned (ha.assigned_subset (List.mem_append_right _ List.mem_cons_self))
  judged _ _ _ hl := .append (.judgementLog hl ..) (.of_silent _ (.redundancyLog ..))
  stored {_ _ _ _ s s' _ _} _ hs _ hl := by
    rw [hs.type]
    exact hl.plainLevel _ s.type
  bound {v p env var l'} hp hvar hl := by
    have hid : var.id ≠ decl.id := fun hid =>
      nomatch (hp.own_unique hu hm (Part.own?_pattern hvar) h.reached rfl hid).1
    rw [Names.unmark, if_neg hid]
    exact ⟨⟨(Weakening.noWorse config u m).levelFor _ hl, fun _ => rfl, rfl⟩,
      .of_silent _ (.bindingLog ..)⟩
  resolved _ := .of_silent _ (.ofConflicts _ _)
  declared {decl' span' env'} hp := by
    have hid : decl'.id ≠ decl.id := fun hid =>
      nomatch (hp.own_unique hu hm rfl h.reached rfl hid).1
    rw [Names.unmark, if_neg hid]
    exact ⟨(Weakening.ofBinding_weakens (W := .noWorse config u m) ..).level, fun _ => rfl, rfl⟩
  initialised {decl' init' span' start l' env'} hp hl henv := by
    by_cases hid : decl'.id = decl.id
    · obtain ⟨heq, rfl⟩ := hp.own_unique hu hm rfl h.reached rfl hid
      cases heq
      have hown : (config.context u m).names.resolve
          (config.names.unmark decl.id decl.id decl.annots) = {} :=
        config.names.resolve_unmark decl.id decl.annots
      rw [hown]
      exact ⟨h.initialState hclosed UnmarkedState.type henv hl, .of_silent _ ⟨rfl, rfl⟩⟩
    · rw [Names.unmark, if_neg hid]
      obtain ⟨hlevel, hpinned, -, htype⟩ := Weakening.initialState_weakens
        (W := .noWorse config u m) UnmarkedState.type henv decl'
        (config.names.resolve decl'.annots) init' hl fun _ => trivial
      exact ⟨⟨hlevel, fun _ => hpinned, htype⟩, .initialLog hl ..⟩

theorem Lockstep.unmarked_start (hu : u.validate = .ok u) (hm : m ∈ u.allMethods)
    (h : RedundantLocal (config.context u m) m decl init span env l)
    (hclosed : l = .closed → RemainsClosed (config.context u m) decl init env) {body : Block}
    (hbody : m.body = some body) :
    (Lockstep.unmarked hu hm h hclosed).Envs (Env.ofParams (config.context u m).model m.params)
      (Env.ofParams (config.context u m).model m.params) := by
  have hstates := (Point.start hu (Discipline.receivers_allows config.names u.declarations) hm
    hbody).states
  refine List.forall₂_same.2 fun frame hframe => List.forall₂_same.2 fun e he => ?_
  exact ⟨rfl, .same (hstates frame hframe e he).level, fun _ => rfl, rfl⟩

end Unmarked

/-! ## Reports -/

/-- The mismatches of a report. -/
def Report.mismatches (r : Report) : List Diagnostic :=
  r.diagnostics.filter fun d => d.kind = .levelMismatch

/-- Mismatches are found under all options. -/
theorem Config.filter_found (config : Config) (log : List Event) :
    (config.found log).filter (fun d => d.kind = .levelMismatch) = Event.mismatches log := by
  rw [found_eq, List.filter_filter]
  refine List.filter_congr fun d _ => ?_
  by_cases hkind : d.kind = .levelMismatch <;> simp [hkind, Options.admits]

/-- The mismatches of a report are those of the complete log. -/
theorem check_mismatches_perm (config : Config) (u : CompilationUnit) :
    (check config u).mismatches.Perm (Event.mismatches (checkLog config.names u)) := by
  rw [← config.filter_found, config.found_eq]
  exact (check_diagnostics_perm config u).filter _

/-- The mismatches in a method are those of the walk through its body. -/
theorem Config.filter_segment (config : Config) (u : CompilationUnit) {m : Method} {body : Block}
    (hbody : m.body = some body) :
    (config.segment u m).filter (fun d => d.kind = .levelMismatch) =
      Event.mismatches (execAll (config.context u m) body.stmts
        (Env.ofParams (config.context u m).model m.params)).log := by
  rw [segment, filter_found]
  simp only [Checker.checkMethod, hbody]
  rfl

/-- **Following the hint that an annotation is redundant makes no mismatch**, unless a closed local
would not remain closed. -/
theorem redundant_marker_removable (config : Config) {u : CompilationUnit}
    (hu : u.validate = .ok u) {m : Method} (hm : m ∈ u.allMethods) {decl : LocalDecl} {init : Expr}
    {span : Span} {env : Env} {l : Level}
    (h : RedundantLocal (config.context u m) m decl init span env l)
    (hclosed : l = .closed → RemainsClosed (config.context u m) decl init env) :
    (check config (u.unmark config.names m decl.id)).mismatches.Subperm
      (check config u).mismatches := by
  obtain ⟨body, hbody⟩ := h.reached.exists_body
  have hbody' : Block.reannotateOption (config.names.unmark decl.id) m.body =
      some (body.reannotate (config.names.unmark decl.id)) := by
    rw [hbody]
    rfl
  -- only the findings in the method itself can change, and there the walks are in lockstep
  obtain ⟨before, after, -, hfound, hfound'⟩ := config.found_withBody hu hm
    (Block.reannotateOption (config.names.unmark decl.id) m.body)
  have hsegment : ((config.segment u
        { m with body := Block.reannotateOption (config.names.unmark decl.id) m.body }).filter
        fun d => d.kind = .levelMismatch).Sublist
      ((config.segment u m).filter fun d => d.kind = .levelMismatch) := by
    rw [config.filter_segment u hbody, config.filter_segment u hbody']
    obtain ⟨stmts, blockSpan⟩ := body
    exact ((Lockstep.unmarked hu hm h hclosed).execAll_lockstep stmts
      (Lockstep.unmarked_start hu hm h hclosed hbody) (.start hbody)).log
  refine (check_mismatches_perm config _).subperm.trans ?_
  refine List.Subperm.trans ?_ (check_mismatches_perm config u).symm.subperm
  rw [← config.filter_found, ← config.filter_found, hfound, CompilationUnit.unmark, hfound',
    config.segment_withBody]
  simp only [List.filter_append]
  exact ((List.Sublist.refl _).append hsegment |>.append (List.Sublist.refl _)).subperm

/-! ## A local that is given a member -/

namespace Repeating

/-- `x`, annotated with what is given. -/
def decl (annots : List Annot) : LocalDecl :=
  { id := ⟨2⟩, name := "x", type := some "Leaf", annots, span := .spot 3 }

/-- `b.inner` -/
def member : Expr :=
  .field (some (.var ⟨1⟩ (.spot 4))) ⟨21⟩ (.spot 4)

def marker (name : String) : Annot :=
  { name, span := .spot 2 }

/-- `@Closed Leaf m(@… Box b) { … Leaf x = b.inner; return x; }` -/
def method (receiver : String) (annots : List Annot) : Method :=
  { id := ⟨0⟩
    name := "m"
    isStatic := true
    annots := [marker "Closed"]
    returnType := some "Leaf"
    params := [
      { id := ⟨1⟩, name := "b", type := "Box", annots := [marker receiver], isVarargs := false,
        span := .spot 1 }]
    body := some (.mk [
      .declare (decl annots) (some member) (.spot 3),
      .ret (some (.var ⟨2⟩ (.spot 5))) (.spot 5)] (.spot 1))
    span := .spot 0 }

/-- `record Box(Leaf inner)` -/
def box : TypeDecl :=
  { id := ⟨20⟩
    name := "Box"
    annots := []
    shape := .record [
      { id := ⟨21⟩, name := "inner", type := "Leaf", annots := [], span := .spot 0 }]
    supertypes := []
    methods := []
    span := .spot 0 }

/-- The singleton `Leaf`, annotated with what is given. -/
def leaf (annots : List Annot) : TypeDecl :=
  { id := ⟨30⟩, name := "Leaf", annots, shape := .singleton, supertypes := [], methods := [],
    span := .spot 0 }

/-- The unit that declares the types and the method. -/
def unit (type : List Annot) (receiver : String) (annots : List Annot) : CompilationUnit :=
  { name := "repeating", types := [box, leaf type], methods := [method receiver annots] }

/-- The local repeats the marker of the receiver. -/
def repeated (type : List Annot) (name : String) : CompilationUnit :=
  unit type name [marker name]

/-- The context in which the method is walked. -/
def context (type : List Annot) (name : String) : Context :=
  ({} : Config).context (repeated type name) (method name [marker name])

/-- The environment in which the local is declared. -/
def start (type : List Annot) (name : String) : Env :=
  Env.ofParams (context type name).model (method name [marker name]).params

/-- The local is found to repeat the marker. -/
def Hinted (type : List Annot) (name : String) (l : Level) : Prop :=
  RedundantLocal (context type name) (method name [marker name]) (decl [marker name]) member
    (.spot 3) (start type name) l

theorem reached (type : List Annot) (name : String) :
    Reached (context type name) (method name [marker name])
      (.stmt (.declare (decl [marker name]) (some member) (.spot 3))) (start type name) :=
  (Reached.start rfl).enter .firstStmt

theorem unmark_eq {type : List Annot} {name : String}
    (hmarker : ((({} : Config).names.marker? (marker name)).isNone) = false) :
    (repeated type name).unmark ({} : Config).names (method name [marker name]) ⟨2⟩ =
      unit type name [] := by
  have hannots : [marker name].filter (fun a => ((({} : Config).names.marker? a).isNone)) = [] := by
    rw [List.filter_cons, hmarker, List.filter_nil]
    rfl
  exact congrArg (unit type name) hannots

theorem hinted_bound : Hinted [] "Bound" .bound :=
  ⟨reached .., ⟨.bound, marker "Bound", by decide, by decide⟩, by decide⟩

theorem hinted_closed : Hinted [] "Closed" .closed :=
  ⟨reached .., ⟨.closed, marker "Closed", by decide, by decide⟩, by decide⟩

theorem hinted_closedType : Hinted [marker "Closed"] "Closed" .closed :=
  ⟨reached .., ⟨.closed, marker "Closed", by decide, by decide⟩, by decide⟩

theorem remainsClosed :
    RemainsClosed (context [marker "Closed"] "Closed") (decl [marker "Closed"]) member
      (start [marker "Closed"] "Closed") := by
  intro _
  decide

end Repeating

/-- A local may repeat that its value is bound, and that its value is closed if its type is closed
as well. -/
theorem redundant_marker_removable_repeating :
    (Repeating.repeated [] "Bound").validate = .ok (Repeating.repeated [] "Bound") ∧
      Repeating.Hinted [] "Bound" .bound ∧
      (check {} (Repeating.unit [] "Bound" [])).mismatches.Subperm
        (check {} (Repeating.repeated [] "Bound")).mismatches ∧
      Repeating.Hinted [Repeating.marker "Closed"] "Closed" .closed ∧
      (check {} (Repeating.unit [Repeating.marker "Closed"] "Closed" [])).mismatches.Subperm
        (check {} (Repeating.repeated [Repeating.marker "Closed"] "Closed")).mismatches := by
  have hbound := redundant_marker_removable {} (u := Repeating.repeated [] "Bound") rfl
    (m := Repeating.method "Bound" [Repeating.marker "Bound"]) List.mem_cons_self
    Repeating.hinted_bound nofun
  have hclosed := redundant_marker_removable {}
    (u := Repeating.repeated [Repeating.marker "Closed"] "Closed") rfl
    (m := Repeating.method "Closed" [Repeating.marker "Closed"]) List.mem_cons_self
    Repeating.hinted_closedType fun _ => Repeating.remainsClosed
  refine ⟨rfl, Repeating.hinted_bound, ?_, Repeating.hinted_closedType, ?_⟩
  · rw [← Repeating.unmark_eq (by decide)]
    exact hbound
  · rw [← Repeating.unmark_eq (by decide)]
    exact hclosed

/-- **Following the hint can make a mismatch.** A member of a closed receiver is closed, and the
local that it is given to is as long as its annotation says so again; without the annotation it is
found too weak to be returned. -/
theorem redundant_marker_needed :
    (Repeating.repeated [] "Closed").validate = .ok (Repeating.repeated [] "Closed") ∧
      Repeating.Hinted [] "Closed" .closed ∧
      (Repeating.repeated [] "Closed").unmark ({} : Config).names
        (Repeating.method "Closed" [Repeating.marker "Closed"]) ⟨2⟩ =
          Repeating.unit [] "Closed" [] ∧
      (check {} (Repeating.repeated [] "Closed")).mismatches = [] ∧
      (check {} (Repeating.unit [] "Closed" [])).mismatches =
        [.levelMismatch (.spot 5) .closed .bound] := by
  refine ⟨rfl, Repeating.hinted_closed, Repeating.unmark_eq (by decide), ?_, ?_⟩
  · have hlog : Event.mismatches (checkLog {} (Repeating.repeated [] "Closed")) = [] := by decide
    exact (hlog ▸ check_mismatches_perm {} (Repeating.repeated [] "Closed")).eq_nil
  · have hlog : Event.mismatches (checkLog {} (Repeating.unit [] "Closed" [])) =
        [.levelMismatch (.spot 5) .closed .bound] := by decide
    exact List.perm_singleton.1 (hlog ▸ check_mismatches_perm {} (Repeating.unit [] "Closed" []))

end Closedness
