import Closedness.Proofs.Positions
import Closedness.Proofs.Shape
import Closedness.Proofs.Tables

/-!
# Arguments are judged one by one

Each argument of a call or construction is evaluated where those before it have left off, and is
judged before the next one is evaluated. `argumentFindings` says in closed form what this finds; it
depends on the callee only by what is required of the argument at each position
(`diagnostics_evalArgs`). In a valid unit that is what the parameter or component at that position
asks for itself, and a last parameter that takes any number of arguments is asked for all further
positions (`Model.requires_params`).

So the arguments of a method with one such parameter can be split at any place
(`arguments_judged_in_turn`).
-/

namespace Closedness

/-! ## One argument -/

/-- What judging an argument finds, given what is required of it. -/
def argumentFinding? (options : Options) (required : Option Level) (level : ValueLevel)
    (span : Span) : Option Diagnostic :=
  required.bind fun r =>
    ((judge r level .strict).diagnostic? r span).filter fun d => options.admits d.kind

section One

variable {options : Options} {required : Option Level} {level : ValueLevel} {span : Span}

theorem diagnostics_finding (options : Options) (d : Diagnostic) :
    Event.diagnostics (options.finding d) =
      ((some d).filter fun d => options.admits d.kind).toList := by
  unfold Options.finding
  by_cases h : options.admits d.kind = true <;>
    simp [Event.diagnostics, Event.diagnostic?, Option.filter, h]

/-- What a strict position reports is the finding about the argument. -/
theorem diagnostics_positionLog_strict :
    Event.diagnostics (positionLog options required level .strict span) =
      (argumentFinding? options required level span).toList := by
  cases required with
  | none => rfl
  | some r =>
    rw [argumentFinding?, Option.bind_some]
    cases hverdict : (judge r level .strict).diagnostic? r span with
    | none => simp [positionLog, judgementLog, hverdict, Event.diagnostics, Event.diagnostic?]
    | some d =>
      rw [← diagnostics_finding, positionLog, judgementLog, hverdict]
      simp only [Option.toList_some, List.flatMap_cons, List.flatMap_nil, List.append_nil]
      rfl

/-- What is found stands at the argument. -/
theorem span_of_argumentFinding? {d : Diagnostic}
    (h : argumentFinding? options required level span = some d) : d.span = span := by
  obtain ⟨r, -, h⟩ := Option.bind_eq_some_iff.1 h
  rw [Option.filter_eq_some_iff] at h
  cases hverdict : judge r level .strict <;> simp [hverdict, Verdict.diagnostic?] at h
  all_goals
    rw [← h.1]
    rfl

/-- Something is found just if the argument does not pass what is required of it; of a cast only if
that is asked for. -/
theorem argumentFinding?_isSome_iff :
    (argumentFinding? options required level span).isSome ↔
      ∃ r, required = some r ∧ judge r level .strict ≠ .pass ∧
        ((∃ l, judge r level .strict = .cast l) → options.smartCast = true) := by
  cases required with
  | none => simp [argumentFinding?]
  | some r =>
    cases hverdict : judge r level .strict <;> cases hcast : options.smartCast <;>
      simp [argumentFinding?, hverdict, hcast, Verdict.diagnostic?, Option.filter, Options.admits,
        Diagnostic.levelMismatch, Diagnostic.smartCast, Diagnostic.uncheckedInference,
        Diagnostic.ofKind]

end One

/-! ## Arguments in order -/

/-- The environment once several expressions are evaluated, one after the other. -/
def Env.afterAll (ctx : Context) (env : Env) (es : List Expr) : Env :=
  es.foldl (fun env e => (eval ctx e env).env) env

/-- What is found about arguments in order: of each what evaluating it finds, once those before it
are evaluated, and then what judging it finds. -/
def argumentFindings (ctx : Context) (required : Nat → Option Level) (args : List Expr)
    (env : Env) : List Diagnostic :=
  args.zipIdx.flatMap fun (arg, i) =>
    let outcome := eval ctx arg (env.afterAll ctx (args.take i))
    Event.diagnostics outcome.log ++
      (argumentFinding? ctx.options (required i) outcome.value.level arg.span).toList

section InOrder

variable (ctx : Context)

/-- The first argument is evaluated and judged; the others follow from where it ends. -/
theorem argumentFindings_cons (required : Nat → Option Level) (arg : Expr) (rest : List Expr)
    (env : Env) :
    argumentFindings ctx required (arg :: rest) env =
      Event.diagnostics (eval ctx arg env).log ++
        (argumentFinding? ctx.options (required 0) (eval ctx arg env).value.level
          arg.span).toList ++
        argumentFindings ctx (fun i => required (i + 1)) rest (eval ctx arg env).env := by
  rw [argumentFindings, List.zipIdx_cons, List.flatMap_cons, List.zipIdx_succ, List.flatMap_map]
  rfl

/-- A list of arguments ends where evaluating them one after the other does. -/
theorem env_evalArgs (required : Nat → Option Level) (args : List Expr) (index : Nat) (env : Env) :
    (evalArgs ctx required index args env).env = env.afterAll ctx args := by
  induction args generalizing index env with
  | nil => rw [evalArgs]; rfl
  | cons arg rest ih =>
    rw [evalArgs]
    simp only [Walk.bind_apply, Walk.pure_apply, checkAgainst_apply, ih]
    rfl

/-- **Arguments are evaluated and judged in turn.** -/
theorem diagnostics_evalArgs (required : Nat → Option Level) (args : List Expr) (index : Nat)
    (env : Env) :
    Event.diagnostics (evalArgs ctx required index args env).log =
      argumentFindings ctx (fun i => required (index + i)) args env := by
  induction args generalizing index env with
  | nil => rw [evalArgs]; rfl
  | cons arg rest ih =>
    have hnext : (fun i => required (index + (i + 1))) = fun i => required (index + 1 + i) := by
      funext i
      rw [Nat.add_assoc, Nat.add_comm 1 i]
    rw [evalArgs, argumentFindings_cons, hnext, ← ih]
    simp only [Walk.bind_apply, Walk.pure_apply, checkAgainst_apply, List.append_nil,
      Event.diagnostics_append, diagnostics_positionLog_strict, Nat.add_zero, List.append_assoc]

/-- Arguments that come after others are judged from where those leave off. -/
theorem argumentFindings_append (required : Nat → Option Level) (xs ys : List Expr) (env : Env) :
    argumentFindings ctx required (xs ++ ys) env =
      argumentFindings ctx required xs env ++
        argumentFindings ctx (fun i => required (xs.length + i)) ys (env.afterAll ctx xs) := by
  induction xs generalizing required env with
  | nil => simp [argumentFindings, Env.afterAll]
  | cons x xs ih =>
    have hlength : (fun i => required ((x :: xs).length + i)) =
        fun i => required (xs.length + i + 1) := by
      funext i
      rw [List.length_cons, Nat.add_right_comm]
    rw [List.cons_append, argumentFindings_cons, argumentFindings_cons, ih, hlength]
    simp only [List.append_assoc]
    rfl

end InOrder

/-! ## What is required -/

/-- What a parameter asks of its arguments: what its annotations say, or else its type. -/
def Context.paramRequirement? (ctx : Context) (p : Param) : Option Level :=
  (ctx.model.declaredBinding (ctx.names.resolve p.annots).binding (some p.type)).explicit?

/-- What a component asks of its argument. -/
def Context.componentRequirement? (ctx : Context) (c : Component) : Option Level :=
  (Model.annotatedBinding ctx.names c.annots).explicit?

/-- What is required at each position is what the parameter there asks for; past the last parameter,
what that one asks for if it takes any number of arguments, and else nothing. -/
structure Requires (asks : Param → Option Level) (params : List Param)
    (required : Nat → Option Level) : Prop where
  declared : ∀ i p, params[i]? = some p → required i = asks p
  further : ∀ i p, params.length ≤ i → params.getLast? = some p → p.isVarargs = true →
    required i = asks p
  surplus : ∀ i, params.length ≤ i → (∀ p, params.getLast? = some p → p.isVarargs = false) →
    required i = none

/-- A declaration is found under its id in a table that has one entry for each declaration. -/
theorem Table.exists_get?_decl {α δ : Type} {decl : α → δ} {id : δ → DeclId} {ds : List δ}
    {t : Table α} (h : t.entries.map (fun e => (e.1, decl e.2)) = ds.map fun d => (id d, d))
    (hnodup : (ds.map id).Nodup) {d : δ} (hd : d ∈ ds) :
    ∃ e, t.get? (id d) = some e ∧ decl e = d := by
  have hmem : (id d, d) ∈ t.entries.map fun e => (e.1, decl e.2) := by
    rw [h]
    exact List.mem_map.2 ⟨d, hd, rfl⟩
  obtain ⟨e, he, heq⟩ := List.mem_map.1 hmem
  obtain ⟨hid, hdecl⟩ := Prod.mk.inj heq
  have hkeys : t.keys.Nodup := by rwa [keys_decls h]
  exact ⟨e.2, hid ▸ get?_of_mem hkeys he, hdecl⟩

namespace Model

variable {names : Names} {u : CompilationUnit} (hu : u.validate = .ok u)
include hu

/-- What a parameter of the unit asks for is its own marker, or that of its type. -/
theorem paramBinding_of_mem {m : Method} (hm : m ∈ u.allMethods) {p : Param} (hp : p ∈ m.params) :
    (ofUnit names u).paramBinding p.id =
      (ofUnit names u).declaredBinding (names.resolve p.annots).binding (some p.type) := by
  obtain ⟨e, he, rfl⟩ := Table.exists_get?_decl (tabulates hu).params
    (CompilationUnit.nodup_params hu) (List.mem_flatMap.2 ⟨m, hm, hp⟩)
  rw [← (of_param? he).2, paramBinding, param?, he]

theorem componentBinding_of_mem {t : TypeDecl} (ht : t ∈ u.types) {c : Component}
    (hc : c ∈ t.components) :
    (ofUnit names u).componentBinding c.id = annotatedBinding names c.annots := by
  obtain ⟨e, he, rfl⟩ := Table.exists_get?_decl (tabulates hu).components
    (CompilationUnit.nodup_components hu) (List.mem_flatMap.2 ⟨t, ht, hc⟩)
  rw [← (of_component? he).2, componentBinding, component?, he]

/-- A method is no component. -/
theorem component?_of_method {m : Method} (hm : m ∈ u.allMethods) :
    (ofUnit names u).component? m.id = none := by
  have htables : (ofUnit names u).Tabulates u := tabulates hu
  have hmethod : m.id ∈ (ofUnit names u).methods.keys := by
    rw [Table.keys_decls htables.methods]
    exact List.mem_map_of_mem hm
  refine Table.get?_eq_none_iff.2 fun hcomponent => ?_
  exact (List.nodup_append.1 htables.nodup).2.2 _ (List.mem_append_right _ hcomponent) _
    (List.mem_append_left _ hmethod) rfl

variable {ctx : Context} (hmodel : ctx.model = ofUnit ctx.names u)
include hmodel

/-- Calling a method of a valid unit requires what its parameters ask for. -/
theorem requires_params {m : Method} (hm : m ∈ u.allMethods) :
    Requires ctx.paramRequirement? m.params (ctx.model.argRequirement? m.id) := by
  have hrequired : ∀ i, ctx.model.argRequirement? m.id i =
      (m.paramAt? i).bind fun p => (ctx.model.paramBinding p.id).explicit? := by
    intro i
    obtain ⟨e, he, rfl⟩ := Table.exists_get?_decl (tabulates hu).methods
      (CompilationUnit.nodup_methods hu) hm
    rw [argRequirement?, hmodel, component?_of_method hu hm, method?, he]
  have hasks : ∀ p ∈ m.params,
      (ctx.model.paramBinding p.id).explicit? = ctx.paramRequirement? p := by
    intro p hp
    rw [Context.paramRequirement?, hmodel, paramBinding_of_mem hu hm hp]
  constructor
  · intro i p hp
    rw [hrequired, Method.paramAt?, hp, Option.bind_some, hasks p (List.mem_of_getElem? hp)]
  · intro i p hi hlast hvarargs
    rw [hrequired, Method.paramAt?, List.getElem?_eq_none hi, hlast]
    simp [Option.filter, hvarargs, hasks p (List.mem_of_getLast? hlast)]
  · intro i hi hlast
    rw [hrequired, Method.paramAt?, List.getElem?_eq_none hi]
    cases hparams : m.params.getLast? with
    | none => rfl
    | some p => simp [Option.filter, hlast p hparams]

/-- Constructing a value of a type of a valid unit requires what its components ask for. -/
theorem componentRequirement?_of_mem {t : TypeDecl} (ht : t ∈ u.types) (i : Nat) :
    ctx.model.componentRequirement? t.id i = t.components[i]?.bind ctx.componentRequirement? := by
  rw [componentRequirement?, hmodel, componentBindings, type?_of_mem hu ht, List.getElem?_map]
  cases hc : t.components[i]? with
  | none => rfl
  | some c =>
    rw [Option.map_some, Option.bind_some, Option.bind_some, Context.componentRequirement?,
      componentBinding_of_mem hu ht (List.mem_of_getElem? hc)]

end Model

/-! ## Calls and constructions -/

/-- A call reports what its receiver reports, and then the findings about its arguments. -/
theorem diagnostics_call (ctx : Context) (receiver : Option Expr) (callee : DeclId)
    (args : List Expr) (span : Span) (env : Env) :
    Event.diagnostics (eval ctx (.call receiver callee args span) env).log =
      Event.diagnostics (evalOption ctx receiver env).log ++
        argumentFindings ctx (ctx.model.argRequirement? callee) args
          (evalOption ctx receiver env).env := by
  rw [eval]
  simp only [Walk.bind_apply, Walk.pure_apply, List.append_nil, Event.diagnostics_append,
    diagnostics_evalArgs, Nat.zero_add]

theorem env_call (ctx : Context) (callee : DeclId) (args : List Expr) (span : Span) (env : Env) :
    (eval ctx (.call none callee args span) env).env = env.afterAll ctx args := by
  rw [eval, evalOption]
  simp only [Walk.bind_apply, Walk.pure_apply, env_evalArgs]

/-- A construction reports the findings about its arguments, and nothing else. -/
theorem diagnostics_construct (ctx : Context) (variant : DeclId) (args : List Expr) (span : Span)
    (env : Env) :
    Event.diagnostics (eval ctx (.construct variant args span) env).log =
      argumentFindings ctx (ctx.model.componentRequirement? variant) args env := by
  rw [eval]
  simp only [Walk.bind_apply, Walk.pure_apply, List.append_nil, diagnostics_evalArgs, Nat.zero_add]

/-- **Arguments are judged one by one.** In a valid unit, from any environment, calling a method
finds what its receiver gives rise to and then, argument by argument, what evaluating the argument
finds where those before it have left off and what judging it finds; the same holds of a
construction. What is required is what the parameter or component at the position asks for, or the
last parameter if it takes any number of arguments. Judging finds at most one thing, at the argument
itself, and does so just if there is a requirement that the argument does not pass; a cast counts
only if casts are asked for. So a call that passes any number of arguments to one parameter finds
the same as two calls that share them out. -/
theorem arguments_judged_in_turn (config : Config) {u : CompilationUnit} (hu : u.validate = .ok u)
    (m : Method) (env : Env) :
    let ctx := config.context u m
    (∀ callee ∈ u.allMethods, ∃ required, Requires ctx.paramRequirement? callee.params required ∧
      ∀ receiver args span,
        Event.diagnostics (eval ctx (.call receiver callee.id args span) env).log =
          Event.diagnostics (evalOption ctx receiver env).log ++
            argumentFindings ctx required args (evalOption ctx receiver env).env) ∧
    (∀ t ∈ u.types, ∀ args span,
      Event.diagnostics (eval ctx (.construct t.id args span) env).log =
        argumentFindings ctx (fun i => t.components[i]?.bind ctx.componentRequirement?) args env) ∧
    (∀ required level span,
      ((argumentFinding? config.options required level span).isSome ↔
        ∃ r, required = some r ∧ judge r level .strict ≠ .pass ∧
          ((∃ l, judge r level .strict = .cast l) → config.options.smartCast = true)) ∧
      ∀ d, argumentFinding? config.options required level span = some d → d.span = span) ∧
    (∀ callee ∈ u.allMethods, ∀ p, callee.params = [p] → p.isVarargs = true → ∀ xs ys span,
      Event.diagnostics (eval ctx (.call none callee.id (xs ++ ys) span) env).log =
        Event.diagnostics (eval ctx (.call none callee.id xs span) env).log ++
          Event.diagnostics (eval ctx (.call none callee.id ys span)
            (eval ctx (.call none callee.id xs span) env).env).log) := by
  intro ctx
  refine ⟨fun callee hcallee => ?_, fun t ht args span => ?_, fun required level span => ?_,
    fun callee hcallee p hparams hvarargs xs ys span => ?_⟩
  · exact ⟨_, Model.requires_params hu rfl hcallee, fun receiver args span => diagnostics_call ..⟩
  · rw [diagnostics_construct, funext (Model.componentRequirement?_of_mem hu rfl ht)]
  · exact ⟨argumentFinding?_isSome_iff, fun d => span_of_argumentFinding?⟩
  · have hrequires : Requires ctx.paramRequirement? callee.params _ :=
      Model.requires_params hu rfl hcallee
    -- every position asks for the same
    have hsame : ctx.model.argRequirement? callee.id = fun _ => ctx.paramRequirement? p := by
      funext i
      cases i with
      | zero => exact hrequires.declared 0 p (by rw [hparams]; rfl)
      | succ i =>
        exact hrequires.further (i + 1) p (by simp [hparams]) (by rw [hparams]; rfl) hvarargs
    have hcall : ∀ args env, Event.diagnostics (eval ctx (.call none callee.id args span) env).log =
        argumentFindings ctx (fun _ => ctx.paramRequirement? p) args env := by
      intro args env
      rw [diagnostics_call, hsame, evalOption]
      rfl
    rw [hcall, hcall, hcall, env_call]
    exact argumentFindings_append ctx _ xs ys env

/-! ## A call whose arguments assign -/

namespace Passing

def param (id : UInt32) (annots : List String) (isVarargs : Bool) : Param :=
  { id := ⟨id⟩, name := "p", type := "Term", annots := annots.map fun name => ⟨name, .spot 0⟩,
    isVarargs, span := .spot 0 }

def static (id : UInt32) (params : List Param) (body : Option Block) : Method :=
  { id := ⟨id⟩, name := "m", isStatic := true, annots := [], returnType := none, params, body,
    span := .spot 0 }

/-- `void take(@Closed Term... p)` -/
def take : Method :=
  static 1 [param 2 ["Closed"] true] none

/-- `x = c, x` -/
def first : List Expr :=
  [.assign ⟨6⟩ (.var ⟨5⟩ (.spot 1)) (.spot 1), .var ⟨6⟩ (.spot 2)]

/-- `x = b, x` -/
def second : List Expr :=
  [.assign ⟨6⟩ (.var ⟨4⟩ (.spot 3)) (.spot 3), .var ⟨6⟩ (.spot 4)]

def call (args : List Expr) : Expr :=
  .call none ⟨1⟩ args (.spot 0)

/-- `void m(@Bound Term b, @Closed Term c, Term x) { take(x = c, x, x = b, x); }` -/
def method : Method :=
  static 3 [param 4 ["Bound"] false, param 5 ["Closed"] false, param 6 [] false]
    (some (.mk [.expr (call (first ++ second)) (.spot 0)] (.spot 0)))

def unit : CompilationUnit :=
  { name := "passing", types := [], methods := [take, method] }

/-- The context in which the method is walked. -/
def context : Context :=
  ({} : Config).context unit method

def start : Env :=
  Env.ofParams context.model method.params

end Passing

/-- Each argument is judged by what the variable has been given before: the first two pass, the
last two do not, and so it is if they are passed in a call of their own. -/
theorem arguments_judged_in_turn_passing :
    Passing.unit.validate = .ok Passing.unit ∧
      Reached Passing.context Passing.method
        (.expr (Passing.call (Passing.first ++ Passing.second))) Passing.start ∧
      Event.diagnostics (eval Passing.context (Passing.call (Passing.first ++ Passing.second))
        Passing.start).log =
        [.levelMismatch (.spot 3) .closed .bound, .levelMismatch (.spot 4) .closed .bound] ∧
      Event.diagnostics (eval Passing.context (Passing.call Passing.first) Passing.start).log = [] ∧
      Event.diagnostics (eval Passing.context (Passing.call Passing.second)
        (eval Passing.context (Passing.call Passing.first) Passing.start).env).log =
        [.levelMismatch (.spot 3) .closed .bound, .levelMismatch (.spot 4) .closed .bound] := by
  have hvalid : Passing.unit.validate = .ok Passing.unit := rfl
  have hreached : Reached Passing.context Passing.method
      (.expr (Passing.call (Passing.first ++ Passing.second))) Passing.start :=
    ((Reached.start rfl).enter .firstStmt).enter .stmtExpr
  have hfirst : Event.diagnostics
      (eval Passing.context (Passing.call Passing.first) Passing.start).log = [] := by
    decide
  have hall : Event.diagnostics
      (eval Passing.context (Passing.call (Passing.first ++ Passing.second)) Passing.start).log =
      [.levelMismatch (.spot 3) .closed .bound, .levelMismatch (.spot 4) .closed .bound] := by
    decide
  obtain ⟨-, -, -, hsplit⟩ :=
    arguments_judged_in_turn {} hvalid Passing.method Passing.start
  have hsplit := hsplit Passing.take List.mem_cons_self _ rfl rfl Passing.first Passing.second
    (.spot 0)
  have hsecond := hsplit.symm.trans hall
  refine ⟨hvalid, hreached, hall, hfirst, ?_⟩
  rw [← hsecond]
  exact (congrArg (· ++ _) hfirst).symm

end Closedness
