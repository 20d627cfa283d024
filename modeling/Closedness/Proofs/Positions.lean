import Closedness.Proofs.Points

/-!
# What is found about a value at its position

A value that stands as an argument, is returned, initialises an annotated local or is assigned to a
pinned variable is judged there, after it has been evaluated. `FindsAt ctx env e finds` says that
all that is found about the value of `e` at such a position is `finds` of what the position
requires; the rest of the log is that of evaluating `e`, and of what comes before and after. For a
value that has no known level, `finds` is given by the judgement alone (`FindsAt.of_judged`): no
annotation can repeat its level.

The value of a switch is the meet of those of its arms that are expressions
(`level_eval_switch`).
-/

namespace Closedness

theorem Event.diagnostics_append (a b : List Event) :
    diagnostics (a ++ b) = diagnostics a ++ diagnostics b :=
  List.filterMap_append

/-! ## Positions -/

/-- What is found about the value of an expression where it stands, given what is required there,
if it is evaluated in an environment. -/
structure FindsAt (ctx : Context) (env : Env) (e : Expr) (finds : Option Level → List Diagnostic) :
    Prop where
  /-- As an argument of a call or construction, after those that come before it. -/
  argument : ∀ (required : Nat → Option Level) (index : Nat) (rest : List Expr),
    Event.diagnostics (evalArgs ctx required index (e :: rest) env).log =
      Event.diagnostics (eval ctx e env).log ++ finds (required index) ++
        Event.diagnostics (evalArgs ctx required (index + 1) rest (eval ctx e env).env).log
  returned : ∀ span : Span,
    Event.diagnostics (exec ctx (.ret (some e) span) env).log =
      Event.diagnostics (eval ctx e env).log ++ finds ctx.returns
  /-- As the initialiser of a local, after the conflicts of its annotations. -/
  initialiser : ∀ (decl : LocalDecl) (span : Span),
    Event.diagnostics (exec ctx (.declare decl (some e) span) env).log =
      Event.diagnostics (Event.ofConflicts decl.id (ctx.names.resolve decl.annots).conflicts) ++
        Event.diagnostics (eval ctx e env).log ++
        finds ((ctx.names.resolve decl.annots).binding.bind Binding.explicit?)
  /-- As what is assigned to a variable, which requires something if it is pinned. -/
  assigned : ∀ (target : DeclId) (span : Span),
    Event.diagnostics (eval ctx (.assign target e span) env).log =
      Event.diagnostics (eval ctx e env).log ++
        finds (((eval ctx e env).env.get? target).bind VarState.pinned)

section Judged

variable {ctx : Context} {env : Env} {e : Expr} {finds : Option Level → List Diagnostic}

/-- An annotation does not repeat a level that is not known. -/
theorem redundancyLog_of_unknown (options : Options) (annotated : Level) {value : ValueLevel}
    (h : value.explicit? = none) (span : Option Span) :
    redundancyLog options annotated value span = [] := by
  cases span with
  | none => rfl
  | some span => rw [redundancyLog, h, if_neg (Option.some_ne_none annotated).symm]

/-- What is found about a value of no known level is what judging it finds. -/
theorem FindsAt.of_judged (hlevel : (eval ctx e env).value.level.explicit? = none)
    (hfinds : ∀ required site, Event.diagnostics (positionLog ctx.options required
      (eval ctx e env).value.level site e.span) = finds required) :
    FindsAt ctx env e finds where
  argument required index rest := by
    rw [evalArgs]
    simp only [Walk.bind_apply, Walk.pure_apply, checkAgainst_apply, List.append_nil,
      Event.diagnostics_append, hfinds, List.append_assoc]
  returned span := by
    rw [exec]
    simp only [Walk.bind_apply, checkAgainst_apply, Event.diagnostics_append, hfinds]
  initialiser decl span := by
    rw [exec]
    simp only [Walk.bind_apply, resolveVariable_apply, initLocal_apply, Event.diagnostics_append,
      List.append_assoc]
    refine congrArg _ (congrArg _ ?_)
    rw [← hfinds _ .declaration, Context.initialLog, Event.diagnostics_append]
    cases (ctx.names.resolve decl.annots).binding.bind Binding.explicit? with
    | none => rfl
    | some l =>
      dsimp only
      rw [redundancyLog_of_unknown _ _ hlevel, List.append_nil, Event.diagnostics_append]
      split <;> exact (List.append_nil _).trans (List.append_nil _)
  assigned target span := by
    rw [eval]
    simp only [Walk.bind_apply, Walk.pure_apply, assignVariable_apply, List.append_nil,
      Event.diagnostics_append]
    refine congrArg _ ?_
    rw [← hfinds _ .declaration, assignmentLog]
    cases (eval ctx e env).env.get? target with
    | none => rfl
    | some s =>
      cases hpinned : s.pinned with
      | none => simp only [Option.bind_some, hpinned]; rfl
      | some p =>
        simp only [Option.bind_some, hpinned, redundancyLog_of_unknown _ _ hlevel, List.append_nil]
        rfl

end Judged

/-! ## The value of a switch -/

/-- The level of a value that comes from one of several paths. -/
def ValueLevel.meetAll : List ValueLevel → ValueLevel
  | [] => .inherit
  | first :: rest => rest.foldl meet first

section Switch

variable (ctx : Context) (v : Evaluated) (env : Env)

/-- The levels of those arms that have one, matched with a value. -/
def Arm.levels (arms : List Arm) : List ValueLevel :=
  arms.filterMap fun a => ((Part.arm v a).run ctx env).value

/-- The level of a switch is the meet of the levels its arms have. -/
theorem level_eval_switch (scrutinee : Expr) (arms : List Arm) (span : Span) :
    (eval ctx (.switch scrutinee arms span) env).value.level =
      .meetAll (Arm.levels ctx (eval ctx scrutinee env).value (eval ctx scrutinee env).env
        arms) := by
  rw [eval]
  simp only [Walk.bind_apply, Walk.pure_apply, Walk.alternatives, Part.runArms_eq_map, List.map_map,
    Walk.meetAll, List.filterMap_map, Function.comp_def, id, Arm.levels]
  cases arms.filterMap _ <;> rfl

variable (label : Label) (span : Span) (rest : List Arm)

/-- An arm that is an expression has its level, where the label has been matched. -/
theorem Part.value_arm_expr (e : Expr) :
    ((Part.arm v (.mk label (.expr e) span)).run ctx env).value =
      some (eval ctx e (bindLabel ctx v label env.push).env).value.level := by
  simp only [Part.run, Walk.inScope_apply, Walk.bind_apply, runBody, Walk.pure_apply]

/-- An arm with a block has no value. -/
theorem Part.value_arm_block (block : Block) :
    ((Part.arm v (.mk label (.block block) span)).run ctx env).value = none := by
  simp only [Part.run, Walk.inScope_apply, Walk.bind_apply, runBody, Walk.pure_apply]

/-- The first arm is evaluated in a scope with the variables of its label. -/
theorem Arm.levels_expr (e : Expr) :
    Arm.levels ctx v env (.mk label (.expr e) span :: rest) =
      (eval ctx e (bindLabel ctx v label env.push).env).value.level ::
        Arm.levels ctx v env rest :=
  List.filterMap_cons_some (Part.value_arm_expr ctx v env label span e)

theorem Arm.levels_block (block : Block) :
    Arm.levels ctx v env (.mk label (.block block) span :: rest) = Arm.levels ctx v env rest :=
  List.filterMap_cons_none (Part.value_arm_block ctx v env label span block)

end Switch

end Closedness
