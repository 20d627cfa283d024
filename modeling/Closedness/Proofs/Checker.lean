import Closedness.Check

/-!
# A checker keeps nothing from one method to the next

One checker walks all methods of a unit, so it comes to a method with what it knows of the methods
before. Turning to a body overwrites all of that but the options of the run, and a method without
body logs nothing, so each method logs what it does with a new checker (`Checker.checkMethod_log`),
and a unit what its declarations and then its methods log one by one (`runLog_eq`, `checkLog_eq`).
-/

namespace Closedness

section Methods

variable (names : Names) (model : Model)

/-- Entering a method forgets all that the checker has gathered but its options. -/
theorem Checker.enter_eq (c : Checker) (m : Method) :
    c.enter names model m = ({ options := c.options } : Checker).enter names model m := rfl

/-- What a method logs does not depend on the methods that were checked before it. -/
theorem Checker.checkMethod_log (c : Checker) (m : Method) :
    (c.checkMethod names model m).2 =
      (Checker.checkMethod names model { options := c.options } m).2 := by
  unfold Checker.checkMethod
  cases m.body with
  | none => rfl
  | some body => rw [c.enter_eq]

theorem Checker.checkMethod_options (c : Checker) (m : Method) :
    (c.checkMethod names model m).1.options = c.options := by
  unfold Checker.checkMethod
  cases m.body <;> rfl

/-- **Each method logs what it does with a new checker**, whatever the checker has walked before. -/
theorem Checker.checkMethods_eq (c : Checker) (ms : List Method) :
    c.checkMethods names model ms =
      ms.flatMap fun m => (Checker.checkMethod names model { options := c.options } m).2 := by
  induction ms generalizing c with
  | nil => rfl
  | cons m rest ih =>
    -- the rest is walked with whatever checker the first method leaves
    show (c.checkMethod names model m).2
      ++ Checker.checkMethods names model (c.checkMethod names model m).1 rest = _
    rw [c.checkMethod_log, ih, c.checkMethod_options, List.flatMap_cons]

/-- Walking a method goes through its body from its parameters. -/
theorem Checker.checkMethod_eq (options : Options) (m : Method) :
    (Checker.checkMethod names model { options } m).2 =
      match m.body with
      | none => []
      | some body =>
        let ctx := Context.ofMethod names model m
        .noted (.method m.name ctx.self ctx.returns) ::
          (execAll { ctx with options } body.stmts (Env.ofParams model m.params)).log := by
  unfold Checker.checkMethod
  cases m.body <;> rfl

/-- Checking a method is executing its body from its parameters, if it has one. -/
theorem checkMethod_eq (m : Method) :
    checkMethod names model m =
      match m.body with
      | none => []
      | some body =>
        let ctx := Context.ofMethod names model m
        .noted (.method m.name ctx.self ctx.returns) ::
          (execAll ctx body.stmts (Env.ofParams model m.params)).log :=
  Checker.checkMethod_eq names model {} m

end Methods

/-- The log of a run: what the headers say, and then method by method from a fresh checker. -/
theorem runLog_eq (config : Config) (u : CompilationUnit) :
    runLog config u =
      Model.log config.names u ++ u.allMethods.flatMap fun m =>
        (Checker.checkMethod config.names (Model.ofUnit config.names u)
          { options := config.options } m).2 := by
  rw [runLog, Checker.checkMethods_eq]

/-- The complete log of a unit: what the headers say, and then method by method. -/
theorem checkLog_eq (names : Names) (u : CompilationUnit) :
    checkLog names u =
      Model.log names u ++ u.allMethods.flatMap (checkMethod names (Model.ofUnit names u)) :=
  runLog_eq { names } u

end Closedness
