import Closedness.Proofs.Checker
import Closedness.Proofs.Discipline
import Closedness.Proofs.Model
import Closedness.Proofs.Nodes

/-!
# Walks stay inside a discipline

`Walk.Keeps D V w`: from an environment whose variables are all in allowed states, the walk `w`
leaves such an environment, finds only what is allowed and gives a value with `V`. Every walk
through a part of a body keeps a discipline that allows the declarations of that part
(`eval_keeps`, `exec_keeps`), hence so does the analysis of a unit (`checkLog_finds`).
-/

namespace Closedness

/-! ## Putting walks together -/

namespace Walk

variable {α β : Type} {D : Discipline}

/-- The walk stays inside the discipline and gives a value with `V`. -/
def Keeps (D : Discipline) (V : α → Prop) (w : Walk α) : Prop :=
  ∀ env, env.All D.State → V (w env).value ∧ (w env).env.All D.State ∧ D.Finds (w env).log

namespace Keeps

theorem pure {V : α → Prop} {a : α} (h : V a) : Keeps D V (Pure.pure a) :=
  fun _ henv => ⟨h, henv, Discipline.finds_nil⟩

/-- A walk that goes on from what another one keeps keeps it, too. -/
theorem bind {V : α → Prop} {W : β → Prop} {first : Walk α} {next : α → Walk β}
    (hfirst : Keeps D V first) (hnext : ∀ a, V a → Keeps D W (next a)) :
    Keeps D W (first >>= next) := by
  intro env henv
  obtain ⟨hvalue, henv', hfinds⟩ := hfirst env henv
  obtain ⟨hvalue', henv'', hfinds'⟩ := hnext _ hvalue _ henv'
  exact ⟨hvalue', henv'', Discipline.finds_append.2 ⟨hfinds, hfinds'⟩⟩

theorem emit {events : List Event} (h : D.Finds events) :
    Keeps D (fun _ => True) (Walk.emit events) :=
  fun _ henv => ⟨trivial, henv, h⟩

theorem inScope {V : α → Prop} {body : Walk α} (h : Keeps D V body) : Keeps D V body.inScope := by
  intro env henv
  obtain ⟨hvalue, henv', hfinds⟩ := h env.push henv.push
  exact ⟨hvalue, henv'.pop, hfinds⟩

theorem fork {V : α → Prop} {W : β → Prop} {first : Walk α} {second : Walk β}
    (hfirst : Keeps D V first) (hsecond : Keeps D W second) :
    Keeps D (fun p => V p.1 ∧ W p.2) (first.fork second) := by
  intro env henv
  obtain ⟨hvalue, henv', hfinds⟩ := hfirst env henv
  obtain ⟨hvalue', henv'', hfinds'⟩ := hsecond env henv
  exact ⟨⟨hvalue, hvalue'⟩, henv''.merge henv' fun _ _ => Discipline.State.join,
    Discipline.finds_append.2 ⟨hfinds, hfinds'⟩⟩

end Keeps

/-- An allowed level, if there is one. -/
abbrev LevelOk (D : Discipline) (o : Option ValueLevel) : Prop :=
  ∀ l, o = some l → D.level l

theorem foldl_meet_level {levels : List ValueLevel} (h : ∀ l ∈ levels, D.level l)
    {first : ValueLevel} (hfirst : D.level first) :
    D.level (levels.foldl ValueLevel.meet first) := by
  induction levels generalizing first with
  | nil => exact hfirst
  | cons l rest ih =>
    exact ih (fun l' hl' => h l' (List.mem_cons_of_mem _ hl'))
      (D.meet hfirst (h l List.mem_cons_self))

/-- A choice between allowed levels is an allowed level. -/
theorem meetAll_level {levels : List (Option ValueLevel)} (h : ∀ o ∈ levels, LevelOk D o) :
    LevelOk D (meetAll levels) := by
  have hall : ∀ l ∈ levels.filterMap id, D.level l := by
    intro l hl
    obtain ⟨o, ho, hl⟩ := List.mem_filterMap.1 hl
    exact h o ho l hl
  intro l hl
  unfold meetAll at hl
  split at hl
  · cases hl
  · next first rest heq =>
    rw [heq] at hall
    rw [← Option.some.inj hl]
    exact foldl_meet_level (fun l hl => hall l (List.mem_cons_of_mem _ hl))
      (hall first List.mem_cons_self)

/-- Where several paths join, the variables stay in allowed states. -/
theorem foldl_merge_all {outcomes : List Env} (h : ∀ env ∈ outcomes, env.All D.State)
    {first : Env} (hfirst : first.All D.State) : (outcomes.foldl Env.merge first).All D.State := by
  induction outcomes generalizing first with
  | nil => exact hfirst
  | cons env rest ih =>
    exact ih (fun env' henv' => h env' (List.mem_cons_of_mem _ henv'))
      (hfirst.merge (h env List.mem_cons_self) fun _ _ => Discipline.State.join)

/-- After a choice the variables are in allowed states, whether or not an arm was taken. -/
theorem joinAll_all {exhaustive : Bool} {before : Env} (hbefore : before.All D.State)
    {outcomes : List Env} (h : ∀ env ∈ outcomes, env.All D.State) :
    (joinAll exhaustive before outcomes).All D.State := by
  unfold joinAll
  split
  · next first rest =>
    exact foldl_merge_all (fun env henv => h env (List.mem_cons_of_mem _ henv))
      (h first List.mem_cons_self)
  · exact foldl_merge_all h hbefore

/-- The arms of a switch keep a discipline together if each of them does. -/
theorem Keeps.alternatives {exhaustive : Bool} {arms : List (Walk (Option ValueLevel))}
    (h : ∀ arm ∈ arms, Keeps D (LevelOk D) arm) :
    Keeps D (LevelOk D) (Walk.alternatives exhaustive arms) := by
  intro env henv
  refine ⟨meetAll_level ?_, joinAll_all henv ?_, ?_⟩
  · intro o ho
    simp only [List.map_map, List.mem_map, Function.comp_apply] at ho
    obtain ⟨arm, harm, rfl⟩ := ho
    exact (h arm harm env henv).1
  · intro env' henv'
    simp only [List.map_map, List.mem_map, Function.comp_apply] at henv'
    obtain ⟨arm, harm, rfl⟩ := henv'
    exact (h arm harm env henv).2.1
  · intro d hd
    obtain ⟨e, he, hd⟩ := List.mem_filterMap.1 hd
    obtain ⟨outcome, ho, he⟩ := List.mem_flatMap.1 he
    obtain ⟨arm, harm, rfl⟩ := List.mem_map.1 ho
    exact (h arm harm env henv).2.2 d (List.mem_filterMap.2 ⟨e, he, hd⟩)

end Walk

/-! ## Bodies -/

/-- An evaluated expression of allowed level, built if at all from values of allowed levels. -/
structure Discipline.Value (D : Discipline) (v : Evaluated) : Prop where
  level : D.level v.level
  built : ∀ b, v.built = some b → ∀ a ∈ b.args, D.level a

theorem Discipline.not_built {D : Discipline} :
    ∀ b : Construction, none = some b → ∀ a ∈ b.args, D.level a :=
  fun _ e => nomatch e

theorem Discipline.Value.ofLevel {D : Discipline} {l : ValueLevel} (h : D.level l) :
    D.Value { level := l } :=
  ⟨h, not_built⟩

section Bodies

variable {D : Discipline} {ctx : Context}

/-- Binding a variable to an allowed level stays inside. -/
theorem bindVariable_keeps (var : PatternVar) (hvar : D.Allows ctx.names [var.declaration])
    {incoming : ValueLevel} (hl : D.level incoming) (type : Option String) :
    Walk.Keeps D (fun _ => True) (bindVariable ctx var incoming type) := by
  intro env henv
  have hmarker := (Discipline.allows_cons.1 hvar).1
  rw [bindVariable_apply]
  exact ⟨trivial, henv.declare (.matched hmarker hl type) var.id,
    Discipline.finds_bindingLog ctx var hmarker incoming⟩

/-- Judging an allowed level against an allowed requirement stays inside. -/
theorem checkAgainst_keeps {required : Option Level}
    (hr : ∀ r, required = some r → r ≠ .inherit ∧ D.binding (.level r)) {l : ValueLevel}
    (hl : D.level l) (site : Site) (span : Span) :
    Walk.Keeps D (fun _ => True) (checkAgainst ctx required l site span) := by
  intro env henv
  rw [checkAgainst_apply]
  exact ⟨trivial, henv, Discipline.finds_positionLog _ hr hl site span⟩

theorem readVariable_keeps (id : DeclId) : Walk.Keeps D D.level (readVariable id) := by
  intro env henv
  rw [readVariable_apply]
  refine ⟨?_, henv, Discipline.finds_nil⟩
  unfold Env.level?
  cases hget : env.get? id with
  | none => exact D.inherit_level
  | some s => exact (henv.of_get? hget).level

theorem resolveVariable_keeps (id : DeclId) {annots : List Annot}
    (h : ∀ b, (ctx.names.resolve annots).binding = some b → D.binding b) :
    Walk.Keeps D (fun r => ∀ b, r.binding = some b → D.binding b)
      (resolveVariable ctx id annots) := by
  intro env henv
  rw [resolveVariable_apply]
  exact ⟨h, henv, Discipline.finds_ofConflicts _ _⟩

variable (hctx : D.Within ctx)

include hctx

theorem assignVariable_keeps (target : DeclId) {l : ValueLevel} (hl : D.level l) (span : Span) :
    Walk.Keeps D (fun _ => True) (assignVariable ctx target l span) := by
  intro env henv
  rw [assignVariable_apply]
  refine ⟨trivial, ?_, Discipline.finds_assignmentLog _ henv target hl span⟩
  unfold Context.assigned
  split
  · exact henv
  · split
    · exact henv
    · exact henv.assign (fun s hs => hs.setLevel (hctx.plainLevel hl _)
        (Discipline.plainLevel_settled ..)) target

theorem declareLocal_keeps (decl : LocalDecl) {resolution : Resolution}
    (h : ∀ b, resolution.binding = some b → D.binding b) :
    Walk.Keeps D (fun _ => True) (declareLocal ctx decl resolution) := by
  intro env henv
  rw [declareLocal_apply]
  exact ⟨trivial, henv.declare (.ofBinding (hctx.declaredBinding h) _ _) decl.id,
    Discipline.finds_nil⟩

theorem initLocal_keeps (decl : LocalDecl) {resolution : Resolution}
    (h : ∀ b, resolution.binding = some b → D.binding b) (init : Expr) {l : ValueLevel}
    (hl : D.level l) :
    Walk.Keeps D (fun _ => True) (initLocal ctx decl resolution init l) := by
  intro env henv
  rw [initLocal_apply]
  exact ⟨trivial, henv.declare (.initialState hctx decl h init hl env) decl.id,
    Discipline.finds_initialLog ctx decl h init hl env⟩

-- the linter does not look into the other theorems of a mutual block
set_option linter.unusedSectionVars false in
mutual

/-- Matching a pattern against an allowed level stays inside. -/
theorem bindPattern_keeps : ∀ (p : Pattern), D.Allows ctx.names p.declarations →
    ∀ {incoming : ValueLevel}, D.level incoming →
    ∀ {built : Option Construction}, (∀ b, built = some b → ∀ a ∈ b.args, D.level a) →
    Walk.Keeps D (fun _ => True) (bindPattern ctx incoming built p)
  | .typeTest variant none span, _, incoming, hl, built, _ => by
    rw [bindPattern]
    have hlog := Discipline.finds_narrowingLog ctx.options (hctx.variantLevel variant) hl span
    exact (Walk.Keeps.emit hlog).bind fun _ _ => .pure trivial
  | .typeTest variant (some var) span, h, incoming, hl, built, _ => by
    rw [bindPattern]
    have hlog := Discipline.finds_narrowingLog ctx.options (hctx.variantLevel variant) hl span
    exact (Walk.Keeps.emit hlog).bind fun _ _ => bindVariable_keeps var h (hctx.narrow variant hl) _
  | .variable var span, h, incoming, hl, built, _ => by
    rw [bindPattern]
    exact bindVariable_keeps var h hl _
  | .record variant components span, h, incoming, hl, built, hb => by
    rw [bindPattern]
    have hlog := Discipline.finds_narrowingLog ctx.options (hctx.variantLevel variant) hl span
    exact (Walk.Keeps.emit hlog).bind fun _ _ => bindComponents_keeps components h
        (hctx.matchedLevel variant (hctx.narrow variant hl) hb) 0
  | .wildcard span, _, incoming, _, built, _ => by
    rw [bindPattern]
    exact .pure trivial

theorem bindComponents_keeps : ∀ (ps : List Pattern),
    D.Allows ctx.names (Pattern.listDeclarations ps) →
    ∀ {level : Nat → ValueLevel}, (∀ i, D.level (level i)) → ∀ (index : Nat),
    Walk.Keeps D (fun _ => True) (bindComponents ctx level index ps)
  | [], _, level, _, index => by
    rw [bindComponents]
    exact .pure trivial
  | p :: rest, h, level, hl, index => by
    rw [Pattern.listDeclarations, Discipline.allows_append] at h
    rw [bindComponents]
    exact (bindPattern_keeps p h.1 (hl index) Discipline.not_built).bind fun _ _ =>
      bindComponents_keeps rest h.2 hl (index + 1)

end

set_option linter.unusedSectionVars false in
mutual

/-- Evaluating an expression stays inside a discipline that allows what it declares. -/
theorem eval_keeps : ∀ (e : Expr), D.Allows ctx.names e.declarations →
    Walk.Keeps D D.Value (eval ctx e)
  | .null _, _ => by rw [eval]; exact .pure (.ofLevel D.null)
  | .literal _ _, _ => by rw [eval]; exact .pure (.ofLevel D.inherit_level)
  | .var decl _, _ => by
    rw [eval]
    exact (readVariable_keeps decl).bind fun _ hl => .pure (.ofLevel hl)
  | .self _, _ => by rw [eval]; exact .pure (.ofLevel hctx.selfLevel)
  | .field receiver component _, h => by
    rw [eval]
    refine (evalOption_keeps receiver h).bind fun o ho => .pure (.ofLevel ?_)
    refine hctx.accessLevel component ?_
    cases o with
    | none => exact hctx.selfLevel
    | some l => exact ho l rfl
  | .call receiver method args _, h => by
    rw [Expr.declarations, Discipline.allows_append] at h
    rw [eval]
    refine (evalOption_keeps receiver h.1).bind fun o ho => ?_
    exact (evalArgs_keeps args h.2 (fun _ _ => hctx.argRequirement?) 0).bind fun _ _ =>
      .pure (.ofLevel (hctx.callResult method ho))
  | .construct variant args _, h => by
    rw [eval]
    refine (evalArgs_keeps args h (fun _ _ => hctx.componentRequirement?) 0).bind fun ls hls => ?_
    exact .pure ⟨hctx.constructionLevel variant, fun _ e => Option.some.inj e ▸ hls⟩
  | .singleton variant _, _ => by
    rw [eval]
    exact .pure (.ofLevel (hctx.constructionLevel variant))
  | .paren inner _, h => by
    rw [eval]
    exact eval_keeps inner h
  | .instanceOf operand pattern _, h => by
    rw [Expr.declarations, Discipline.allows_append] at h
    rw [eval]
    refine (eval_keeps operand h.1).bind fun v hv => ?_
    exact (bindPattern_keeps hctx pattern h.2 hv.level hv.built).bind fun _ _ =>
      .pure (.ofLevel D.inherit_level)
  | .conditional condition thenExpr elseExpr _, h => by
    rw [Expr.declarations, Discipline.allows_append, Discipline.allows_append] at h
    rw [eval]
    refine (eval_keeps condition h.1.1).bind fun _ _ => ?_
    exact ((eval_keeps thenExpr h.1.2).fork (eval_keeps elseExpr h.2)).bind fun _ hv =>
      .pure (.ofLevel (D.meet hv.1.level hv.2.level))
  | .switch scrutinee arms _, h => by
    rw [Expr.declarations, Discipline.allows_append] at h
    rw [eval]
    refine (eval_keeps scrutinee h.1).bind fun v hv => ?_
    refine (Walk.Keeps.alternatives (runArms_keeps arms h.2 hv)).bind fun o ho => ?_
    refine .pure (.ofLevel ?_)
    cases o with
    | none => exact D.inherit_level
    | some l => exact ho l rfl
  | .assign target value _, h => by
    rw [eval]
    refine (eval_keeps value h).bind fun v hv => ?_
    exact (assignVariable_keeps hctx target hv.level _).bind fun _ _ => .pure (.ofLevel hv.level)
  | .other _ children _, h => by
    rw [eval]
    exact (evalArgs_keeps children h (fun _ _ (e : none = some _) => nomatch e) 0).bind fun _ _ =>
      .pure (.ofLevel D.inherit_level)

theorem evalOption_keeps : ∀ (e : Option Expr), D.Allows ctx.names (Expr.optionDeclarations e) →
    Walk.Keeps D (Walk.LevelOk D) (evalOption ctx e)
  | none, _ => by rw [evalOption]; exact .pure fun _ e => (nomatch e)
  | some e, h => by
    rw [evalOption]
    exact (eval_keeps e h).bind fun v hv => .pure fun _ e => Option.some.inj e ▸ hv.level

theorem evalArgs_keeps : ∀ (es : List Expr), D.Allows ctx.names (Expr.listDeclarations es) →
    ∀ {required : Nat → Option Level},
    (∀ i r, required i = some r → r ≠ .inherit ∧ D.binding (.level r)) → ∀ (index : Nat),
    Walk.Keeps D (fun ls => ∀ l ∈ ls, D.level l) (evalArgs ctx required index es)
  | [], _, required, _, index => by
    rw [evalArgs]
    exact .pure fun _ hl => (nomatch hl)
  | e :: rest, h, required, hr, index => by
    rw [Expr.listDeclarations, Discipline.allows_append] at h
    rw [evalArgs]
    refine (eval_keeps e h.1).bind fun v hv => ?_
    refine (checkAgainst_keeps (hr index) hv.level _ _).bind fun _ _ => ?_
    refine (evalArgs_keeps rest h.2 hr (index + 1)).bind fun ls hls => .pure fun l hl => ?_
    rcases List.mem_cons.1 hl with rfl | hl
    · exact hv.level
    · exact hls l hl

/-- Each arm of a switch stays inside. -/
theorem runArms_keeps : ∀ (arms : List Arm), D.Allows ctx.names (Arm.listDeclarations arms) →
    ∀ {scrutinee : Evaluated}, D.Value scrutinee →
    ∀ arm ∈ runArms ctx scrutinee arms, Walk.Keeps D (Walk.LevelOk D) arm
  | [], _, scrutinee, _, arm, harm => by
    rw [runArms] at harm
    cases harm
  | .mk label body _ :: rest, h, scrutinee, hv, arm, harm => by
    rw [Arm.listDeclarations, Discipline.allows_append, Discipline.allows_append] at h
    rw [runArms] at harm
    rcases List.mem_cons.1 harm with rfl | harm
    · exact ((bindLabel_keeps label h.1.1 hv).bind fun _ _ => runBody_keeps body h.1.2).inScope
    · exact runArms_keeps rest h.2 hv arm harm

theorem bindLabel_keeps : ∀ (label : Label), D.Allows ctx.names label.declarations →
    ∀ {scrutinee : Evaluated}, D.Value scrutinee →
    Walk.Keeps D (fun _ => True) (bindLabel ctx scrutinee label)
  | .pattern pattern, h, scrutinee, hv => by
    rw [bindLabel]
    exact bindPattern_keeps hctx pattern h hv.level hv.built
  | .constant expr, h, scrutinee, _ => by
    rw [bindLabel]
    exact (eval_keeps expr h).bind fun _ _ => .pure trivial
  | .default, _, scrutinee, _ => by
    rw [bindLabel]
    exact .pure trivial

theorem runBody_keeps : ∀ (body : ArmBody), D.Allows ctx.names body.declarations →
    Walk.Keeps D (Walk.LevelOk D) (runBody ctx body)
  | .expr expr, h => by
    rw [runBody]
    exact (eval_keeps expr h).bind fun v hv => .pure fun _ e => Option.some.inj e ▸ hv.level
  | .block block, h => by
    rw [runBody]
    exact (execBlock_keeps block h).bind fun _ _ => .pure fun _ e => (nomatch e)

/-- Running a statement stays inside a discipline that allows what it declares. -/
theorem exec_keeps : ∀ (s : Stmt), D.Allows ctx.names s.declarations →
    Walk.Keeps D (fun _ => True) (exec ctx s)
  | .declare decl none _, h => by
    rw [exec]
    exact (resolveVariable_keeps decl.id (Discipline.allows_cons.1 h).1).bind fun _ hr =>
      declareLocal_keeps hctx decl hr
  | .declare decl (some init) _, h => by
    have h := Discipline.allows_cons.1 h
    rw [exec]
    refine (resolveVariable_keeps decl.id h.1).bind fun _ hr => ?_
    exact (eval_keeps init h.2).bind fun v hv => initLocal_keeps hctx decl hr init hv.level
  | .expr expr _, h => by
    rw [exec]
    exact (eval_keeps expr h).bind fun _ _ => .pure trivial
  | .ifElse condition thenBranch elseBranch _, h => by
    rw [Stmt.declarations, Discipline.allows_append, Discipline.allows_append] at h
    rw [exec]
    refine .inScope ((eval_keeps condition h.1.1).bind fun _ _ => ?_)
    exact ((execBlock_keeps thenBranch h.1.2).fork (execOption_keeps elseBranch h.2)).bind
      fun _ _ => .pure trivial
  | .loop condition body _, h => by
    rw [Stmt.declarations, Discipline.allows_append] at h
    rw [exec]
    have hskip : Walk.Keeps D (fun _ => True) (pure ()) := .pure trivial
    refine .inScope ((eval_keeps condition h.1).bind fun _ _ => ?_)
    exact ((execBlock_keeps body h.2).fork hskip).bind fun _ _ => .pure trivial
  | .switch scrutinee arms _, h => by
    rw [Stmt.declarations, Discipline.allows_append] at h
    rw [exec]
    refine (eval_keeps scrutinee h.1).bind fun v hv => ?_
    exact (Walk.Keeps.alternatives (runArms_keeps arms h.2 hv)).bind fun _ _ => .pure trivial
  | .ret none _, _ => by
    rw [exec]
    exact .pure trivial
  | .ret (some value) _, h => by
    rw [exec]
    refine (eval_keeps value h).bind fun v hv => ?_
    exact checkAgainst_keeps (fun _ => hctx.returns) hv.level _ _
  | .block block _, h => by
    rw [exec]
    exact execBlock_keeps block h

theorem execAll_keeps : ∀ (stmts : List Stmt), D.Allows ctx.names (Stmt.listDeclarations stmts) →
    Walk.Keeps D (fun _ => True) (execAll ctx stmts)
  | [], _ => by
    rw [execAll]
    exact .pure trivial
  | s :: rest, h => by
    rw [Stmt.listDeclarations, Discipline.allows_append] at h
    rw [execAll]
    exact (exec_keeps s h.1).bind fun _ _ => execAll_keeps rest h.2

theorem execBlock_keeps : ∀ (block : Block), D.Allows ctx.names block.declarations →
    Walk.Keeps D (fun _ => True) (execBlock ctx block)
  | .mk stmts _, h => by
    rw [execBlock]
    exact (execAll_keeps stmts h).inScope

theorem execOption_keeps : ∀ (block : Option Block),
    D.Allows ctx.names (Block.optionDeclarations block) →
    Walk.Keeps D (fun _ => True) (execOption ctx block)
  | none, _ => by
    rw [execOption]
    exact .pure trivial
  | some block, h => by
    rw [execOption]
    exact execBlock_keeps block h

end

end Bodies

/-! ## Units -/

namespace Discipline

variable {D : Discipline} {names : Names} {u : CompilationUnit}

/-- What a component or a method asks for is allowed when its markers are. -/
theorem annotatedBinding_allowed {annots : List Annot}
    (h : ∀ b, (names.resolve annots).binding = some b → D.binding b) :
    D.binding (Model.annotatedBinding names annots) := by
  unfold Model.annotatedBinding
  cases hb : (names.resolve annots).binding with
  | none => exact D.inherits
  | some b => exact h b hb

theorem annotatedLevel_allowed {annots : List Annot}
    (h : ∀ l, (names.resolve annots).binding = some (.level l) → D.binding (.level l)) :
    D.binding (.level (Model.annotatedLevel names annots)) := by
  unfold Model.annotatedLevel
  match hb : (names.resolve annots).binding with
  | none => exact D.inherits
  | some .noInherit => exact D.inherits
  | some (.level l) => exact h l hb

/-- A discipline that admits the declarations of a unit allows what its tables say, in every
method. -/
theorem within_ofMethod (h : D.Admits names u.declarations) (m : Method) :
    D.Within (Context.ofMethod names (Model.ofUnit names u) m) := by
  have htype : ∀ {id t}, (Model.ofUnit names u).type? id = some t →
      D.binding (.level t.level) := by
    intro id t ht
    obtain ⟨hdecl, hlevel⟩ := Model.of_type? ht
    rw [hlevel]
    refine annotatedLevel_allowed fun l hl => ?_
    exact (h _ (CompilationUnit.declaration_of_type hdecl) _ hl).resolve_right fun e => nomatch e.2
  have hmethod : ∀ {id e}, (Model.ofUnit names u).method? id = some e → D.binding e.returns := by
    intro id e he
    obtain ⟨hdecl, hreturns⟩ := Model.of_method? he
    rw [hreturns]
    exact annotatedBinding_allowed fun _ =>
      h.binding (CompilationUnit.declarations_of_method hdecl e.decl.declaration_mem) rfl
  refine ⟨htype, ?_, hmethod, ?_, ?_, ?_⟩
  · intro id c hc
    obtain ⟨⟨t, ht, hdecl⟩, hbinding⟩ := Model.of_component? hc
    rw [hbinding]
    exact annotatedBinding_allowed fun _ =>
      h.binding (CompilationUnit.declaration_of_component ht hdecl) rfl
  · intro id p hp
    obtain ⟨⟨m', hm', hdecl⟩, hbinding⟩ := Model.of_param? hp
    rw [hbinding]
    cases hown : (names.resolve p.decl.annots).binding with
    | some b =>
      exact h.binding
        (CompilationUnit.declarations_of_method hm' (Method.declaration_of_param hdecl)) rfl hown
    | none =>
      show D.binding (.level ((Model.ofUnit names u).typeLevel p.decl.type))
      unfold Model.typeLevel
      cases ht : (Model.ofUnit names u).typeNamed? p.decl.type with
      | none => exact D.inherits
      | some t =>
        obtain ⟨entry, -, ht⟩ := Option.bind_eq_some_iff.1 ht
        exact htype ht
  · intro l hl
    obtain ⟨t, ht, rfl⟩ := Option.map_eq_some_iff.1 hl
    split at ht
    · cases ht
    · obtain ⟨owner, -, ht⟩ := Option.bind_eq_some_iff.1 ht
      exact D.ofLevel (htype ht)
  · intro r hr
    obtain ⟨e, he, hr⟩ := Option.bind_eq_some_iff.1 hr
    obtain ⟨hb, hne⟩ := explicit?_eq_some hr
    exact ⟨hne, hb ▸ hmethod he⟩

/-- The parameters of a method start in allowed states. -/
theorem all_ofParams {ctx : Context} (h : D.Within ctx) (params : List Param) :
    (Env.ofParams ctx.model params).All D.State := by
  have hfold : ∀ (ps : List Param) {env : Env}, env.All D.State →
      (ps.foldl (fun env p => env.declare p.id
        (.ofBinding (ctx.model.paramBinding p.id) none (some p.type))) env).All D.State := by
    intro ps
    induction ps with
    | nil => exact fun henv => henv
    | cons p rest ih => exact fun henv => ih (henv.declare (.ofBinding (h.paramBinding p.id) _ _) _)
  exact hfold params .empty

/-- Nothing but variables is declared in a body, so all of it is allowed. -/
theorem allows_body (h : D.Admits names u.declarations) {m : Method} (hm : m ∈ u.allMethods)
    {body : Block} (hbody : m.body = some body) :
    D.Allows names (Stmt.listDeclarations body.stmts) := by
  obtain ⟨stmts, span⟩ := body
  intro d hd b hb
  have hkind : d.kind = .variable := Node.InBody.kind_eq (n := .block (.mk stmts span)) trivial hd
  refine h.binding (CompilationUnit.declarations_of_method hm (Method.declarations_of_body ?_))
    (by rw [hkind]; rfl) hb
  rw [hbody]
  exact hd

/-- **The analysis of a unit finds only what a discipline allows**, if that admits the markers of
the unit's declarations. -/
theorem checkLog_finds (h : D.Admits names u.declarations) : D.Finds (checkLog names u) := by
  rw [checkLog_eq]
  refine finds_append.2 ⟨finds_append.2 ⟨?_, finds_noted _⟩, ?_⟩
  · intro d hd
    obtain ⟨e, he, hd⟩ := List.mem_filterMap.1 hd
    obtain ⟨decl, -, he⟩ := List.mem_flatMap.1 he
    exact finds_ofConflicts _ _ d (List.mem_filterMap.2 ⟨e, he, hd⟩)
  · intro d hd
    obtain ⟨e, he, hd⟩ := List.mem_filterMap.1 hd
    obtain ⟨m, hm, he⟩ := List.mem_flatMap.1 he
    have hmethod : D.Finds (checkMethod names (Model.ofUnit names u) m) := by
      rw [checkMethod_eq]
      cases hbody : m.body with
      | none => exact finds_nil
      | some body =>
        have hctx := within_ofMethod h m
        refine finds_append.2 ⟨finds_noted (.method m.name _ _), ?_⟩
        exact (execAll_keeps hctx body.stmts (allows_body h hm hbody) _
          (all_ofParams hctx m.params)).2.2
    exact hmethod d (List.mem_filterMap.2 ⟨e, he, hd⟩)

end Discipline

end Closedness
