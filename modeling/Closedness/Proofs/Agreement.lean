import Closedness.Proofs.Checker
import Mathlib.Data.List.Basic

/-!
# Contexts that agree

Walking a body looks up the declarations that the body names: the level, name and components of a
type, what a component, a parameter or a return value asks for. Besides, it asks for the levels of
types by name, and for what is known of the object whose method runs. Contexts that answer the
lookups in `known` alike (`Context.AgreesOn`) are exchangeable for bodies that make no other lookups
(`eval_congr`, `exec_congr`); nothing is looked up about variables. So what walking a method logs
depends on the answers to the lookups of its body (`checkMethod_of_agreesOn`).
-/

namespace Closedness

/-- What the tables are asked about a declaration. -/
inductive Lookup where
  | type (id : DeclId)
  | component (id : DeclId)
  /-- Something that is called: a component or a method. -/
  | callee (id : DeclId)
  /-- The method that is walked. -/
  | method (id : DeclId)
  | param (id : DeclId)

/-- What is looked up where the reference stands. -/
def Reference.lookup? (r : Reference) : Option Lookup :=
  match r.role with
  | .variable => none
  | .component => some (.component r.id)
  | .method => some (.callee r.id)
  | .record | .singleton | .type => some (.type r.id)

/-- The contexts give a walk the same answers to the lookups in `known`. -/
structure Context.AgreesOn (known : Lookup → Prop) (a b : Context) : Prop where
  names : a.names = b.names
  self : a.self = b.self
  selfType : a.selfType = b.selfType
  returns : a.returns = b.returns
  options : a.options = b.options
  typeLevel : a.model.typeLevel = b.model.typeLevel
  variantLevel : ∀ {id}, known (.type id) → a.model.variantLevel id = b.model.variantLevel id
  typeName? : ∀ {id}, known (.type id) → a.model.typeName? id = b.model.typeName? id
  componentBindings : ∀ {id}, known (.type id) →
    a.model.componentBindings id = b.model.componentBindings id
  componentBinding : ∀ {id}, known (.component id) →
    a.model.componentBinding id = b.model.componentBinding id
  componentType? : ∀ {id}, known (.component id) →
    a.model.componentType? id = b.model.componentType? id
  calleeType? : ∀ {id}, known (.callee id) →
    (a.model.componentType? id).or (a.model.returnType? id) =
      (b.model.componentType? id).or (b.model.returnType? id)
  callResult : ∀ {id}, known (.callee id) → a.model.callResult id = b.model.callResult id
  argRequirement? : ∀ {id}, known (.callee id) →
    a.model.argRequirement? id = b.model.argRequirement? id
  paramBinding : ∀ {id}, known (.param id) → a.model.paramBinding id = b.model.paramBinding id

namespace Reference

/-- The lookups of all the references are in `known`. -/
def AllIn (known : Lookup → Prop) (rs : List Reference) : Prop :=
  ∀ r ∈ rs, ∀ l ∈ r.lookup?, known l

variable {known : Lookup → Prop} {r : Reference} {rs rs' : List Reference}

theorem allIn_append : AllIn known (rs ++ rs') ↔ AllIn known rs ∧ AllIn known rs' := by
  simp [AllIn, or_imp, forall_and]

theorem AllIn.head (h : AllIn known (r :: rs)) {l : Lookup} (hl : r.lookup? = some l) : known l :=
  h r List.mem_cons_self l hl

theorem AllIn.tail (h : AllIn known (r :: rs)) : AllIn known rs := fun r' hr' =>
  h r' (List.mem_cons_of_mem _ hr')

end Reference

namespace Context.AgreesOn

variable {known : Lookup → Prop} {a b : Context}

variable (h : a.AgreesOn known b)
include h

theorem selfLevel : a.selfLevel = b.selfLevel := by
  rw [Context.selfLevel, Context.selfLevel, h.self]

theorem plainLevel : a.plainLevel = b.plainLevel := by
  funext value type
  simp only [Context.plainLevel, Model.explicitTypeLevel?, h.typeLevel]

/-- Agreeing contexts make the same of a marker and the type it stands before. -/
theorem declaredBinding : a.model.declaredBinding = b.model.declaredBinding := by
  funext own type
  unfold Model.declaredBinding
  rw [h.typeLevel]

theorem accessLevel {id : DeclId} (hid : known (.component id)) :
    a.model.accessLevel id = b.model.accessLevel id := by
  funext receiver
  rw [Model.accessLevel, Model.accessLevel, h.componentBinding hid]

theorem constructionLevel {id : DeclId} (hid : known (.type id)) :
    a.model.constructionLevel id = b.model.constructionLevel id := by
  rw [Model.constructionLevel, Model.constructionLevel, h.variantLevel hid]

theorem componentRequirement? {id : DeclId} (hid : known (.type id)) :
    a.model.componentRequirement? id = b.model.componentRequirement? id := by
  funext index
  rw [Model.componentRequirement?, Model.componentRequirement?, h.componentBindings hid]

theorem matchedLevel {id : DeclId} (hid : known (.type id)) :
    a.model.matchedLevel id = b.model.matchedLevel id := by
  funext narrowed built index
  rw [Model.matchedLevel, Model.matchedLevel, h.componentBindings hid]

/-- An expression has the same static type when its lookups are known. -/
theorem staticType? (env : Env) : ∀ e : Expr, Reference.AllIn known e.references →
    e.staticType? a env = e.staticType? b env
  | .null _, _ | .literal _ _, _ | .var _ _, _ | .instanceOf _ _ _, _ | .switch _ _ _, _
  | .other _ _ _, _ => by
    rw [Expr.staticType?, Expr.staticType?]
  | .self _, _ => by rw [Expr.staticType?, Expr.staticType?, h.selfType]
  | .field receiver component _, hr => by
    rw [Expr.staticType?, Expr.staticType?, h.componentType? (hr.head rfl)]
  | .call receiver method args _, hr => by
    rw [Expr.staticType?, Expr.staticType?, h.calleeType? (hr.head rfl)]
  | .construct variant args _, hr => by
    rw [Expr.staticType?, Expr.staticType?, h.typeName? (hr.head rfl)]
  | .singleton variant _, hr => by
    rw [Expr.staticType?, Expr.staticType?, h.typeName? (hr.head rfl)]
  | .paren inner _, hr => by
    rw [Expr.staticType?, Expr.staticType?]
    exact staticType? env inner hr
  | .conditional condition thenExpr elseExpr _, hr => by
    rw [Expr.staticType?, Expr.staticType?]
    exact staticType? env thenExpr (Reference.allIn_append.1 (Reference.allIn_append.1 hr).1).2
  | .assign target value _, hr => by
    rw [Expr.staticType?, Expr.staticType?]
    exact staticType? env value hr.tail

/-- Whether a marker says more than the initial value is decided alike. -/
theorem keepsMarker (env : Env) (declared : Option String) {init : Expr}
    (hr : Reference.AllIn known init.references) :
    init.keepsMarker a env declared = init.keepsMarker b env declared := by
  unfold Expr.keepsMarker
  rw [h.staticType? env init hr]

theorem resolveVariable (id : DeclId) (annots : List Annot) :
    resolveVariable a id annots = resolveVariable b id annots := by
  rw [Closedness.resolveVariable, Closedness.resolveVariable, h.names]

theorem checkValue : checkValue a = checkValue b := by
  funext required value site span
  rw [Closedness.checkValue, Closedness.checkValue, h.options]

theorem checkRedundant : checkRedundant a = checkRedundant b := by
  funext annotated value span
  rw [Closedness.checkRedundant, Closedness.checkRedundant, h.options]

theorem checkAgainst : checkAgainst a = checkAgainst b := by
  funext required value site span
  unfold Closedness.checkAgainst
  rw [h.checkValue]

/-- Binding a pattern variable is the same walk: only its markers and type are asked for. -/
theorem bindVariable (var : PatternVar) (incoming : ValueLevel) (type : Option String) :
    bindVariable a var incoming type = bindVariable b var incoming type := by
  simp only [Closedness.bindVariable, h.resolveVariable, h.checkRedundant]

theorem assignVariable (target : DeclId) (level : ValueLevel) (span : Span) :
    assignVariable a target level span = assignVariable b target level span := by
  simp only [Closedness.assignVariable, h.plainLevel, h.checkValue, h.checkRedundant]

theorem declareLocal (decl : LocalDecl) (resolution : Resolution) :
    declareLocal a decl resolution = declareLocal b decl resolution := by
  rw [Closedness.declareLocal, Closedness.declareLocal, h.declaredBinding]

/-- Giving a local variable its first value is the same walk. -/
theorem initLocal (decl : LocalDecl) (resolution : Resolution) {init : Expr}
    (hr : Reference.AllIn known init.references) (value : ValueLevel) :
    initLocal a decl resolution init value = initLocal b decl resolution init value := by
  simp only [Closedness.initLocal, h.staticType? _ init hr, h.keepsMarker _ _ hr, h.plainLevel,
    h.checkValue, h.checkRedundant]

end Context.AgreesOn

section Congruence

variable {known : Lookup → Prop} {a b : Context} (h : a.AgreesOn known b)
include h

-- the linter does not look into the other theorems of a mutual block
set_option linter.unusedSectionVars false in
mutual

/-- **Matching is the same walk in contexts that agree** on the lookups of the pattern. -/
theorem bindPattern_congr : ∀ (p : Pattern), Reference.AllIn known p.references →
    ∀ (incoming : ValueLevel) (built : Option Construction),
    bindPattern a incoming built p = bindPattern b incoming built p
  | .typeTest variant none span, hr, incoming, built => by
    rw [bindPattern, bindPattern, h.variantLevel (hr.head rfl), h.options]
  | .typeTest variant (some var) span, hr, incoming, built => by
    have hvariant := hr.head rfl
    rw [bindPattern, bindPattern, h.variantLevel hvariant, h.typeName? hvariant, h.bindVariable,
      h.options]
  | .variable var span, _, incoming, built => by
    rw [bindPattern, bindPattern, h.bindVariable]
  | .record variant components span, hr, incoming, built => by
    have hvariant := hr.head rfl
    rw [bindPattern, bindPattern, h.variantLevel hvariant, h.matchedLevel hvariant,
      bindComponents_congr components hr.tail, h.options]
  | .wildcard span, _, incoming, built => by
    rw [bindPattern, bindPattern]

theorem bindComponents_congr : ∀ (ps : List Pattern),
    Reference.AllIn known (Pattern.listReferences ps) →
    ∀ (level : Nat → ValueLevel) (index : Nat),
    bindComponents a level index ps = bindComponents b level index ps
  | [], _, level, index => by rw [bindComponents, bindComponents]
  | p :: rest, hr, level, index => by
    obtain ⟨hp, hrest⟩ := Reference.allIn_append.1 hr
    rw [bindComponents, bindComponents, bindPattern_congr p hp, bindComponents_congr rest hrest]

end

set_option linter.unusedSectionVars false in
mutual

/-- **Evaluating an expression is the same walk in contexts that agree** on its lookups. -/
theorem eval_congr : ∀ e : Expr, Reference.AllIn known e.references → eval a e = eval b e
  | .null _, _ | .literal _ _, _ | .var _ _, _ => by rw [eval, eval]
  | .self _, _ => by rw [eval, eval, h.selfLevel]
  | .field receiver component _, hr => by
    rw [eval, eval, evalOption_congr receiver hr.tail, h.accessLevel (hr.head rfl), h.selfLevel]
  | .call receiver method args _, hr => by
    have hmethod := hr.head rfl
    obtain ⟨hreceiver, hargs⟩ := Reference.allIn_append.1 hr.tail
    rw [eval, eval, evalOption_congr receiver hreceiver, h.argRequirement? hmethod,
      evalArgs_congr args hargs, h.callResult hmethod, h.self]
  | .construct variant args _, hr => by
    have hvariant := hr.head rfl
    rw [eval, eval, h.componentRequirement? hvariant, evalArgs_congr args hr.tail,
      h.constructionLevel hvariant]
  | .singleton variant _, hr => by
    rw [eval, eval, h.constructionLevel (hr.head rfl)]
  | .paren inner _, hr => by
    rw [eval, eval]
    exact eval_congr inner hr
  | .instanceOf operand pattern _, hr => by
    obtain ⟨hpattern, hoperand⟩ := Reference.allIn_append.1 hr
    rw [eval, eval, eval_congr operand hoperand]
    simp only [bindPattern_congr h pattern hpattern]
  | .conditional condition thenExpr elseExpr _, hr => by
    obtain ⟨hboth, helse⟩ := Reference.allIn_append.1 hr
    obtain ⟨hcondition, hthen⟩ := Reference.allIn_append.1 hboth
    rw [eval, eval, eval_congr condition hcondition, eval_congr thenExpr hthen,
      eval_congr elseExpr helse]
  | .switch scrutinee arms _, hr => by
    obtain ⟨harms, hscrutinee⟩ := Reference.allIn_append.1 hr
    rw [eval, eval, eval_congr scrutinee hscrutinee]
    simp only [runArms_congr arms harms]
  | .assign target value _, hr => by
    rw [eval, eval, eval_congr value hr.tail]
    simp only [h.assignVariable]
  | .other _ children _, hr => by
    rw [eval, eval, evalArgs_congr children hr]

theorem evalOption_congr : ∀ e : Option Expr,
    Reference.AllIn known (Expr.optionReferences e) → evalOption a e = evalOption b e
  | none, _ => by rw [evalOption, evalOption]
  | some e, hr => by rw [evalOption, evalOption, eval_congr e hr]

theorem evalArgs_congr : ∀ es : List Expr, Reference.AllIn known (Expr.listReferences es) →
    ∀ (required : Nat → Option Level) (index : Nat),
    evalArgs a required index es = evalArgs b required index es
  | [], _, required, index => by rw [evalArgs, evalArgs]
  | e :: rest, hr, required, index => by
    obtain ⟨he, hrest⟩ := Reference.allIn_append.1 hr
    rw [evalArgs, evalArgs, eval_congr e he, evalArgs_congr rest hrest, h.checkAgainst]

theorem runArms_congr : ∀ arms : List Arm, Reference.AllIn known (Arm.listReferences arms) →
    ∀ scrutinee : Evaluated, runArms a scrutinee arms = runArms b scrutinee arms
  | [], _, scrutinee => by rw [runArms, runArms]
  | .mk label body _ :: rest, hr, scrutinee => by
    obtain ⟨harm, hrest⟩ := Reference.allIn_append.1 hr
    obtain ⟨hlabel, hbody⟩ := Reference.allIn_append.1 harm
    rw [runArms, runArms, bindLabel_congr label hlabel, runBody_congr body hbody,
      runArms_congr rest hrest]

theorem bindLabel_congr : ∀ label : Label, Reference.AllIn known label.references →
    ∀ scrutinee : Evaluated, bindLabel a scrutinee label = bindLabel b scrutinee label
  | .pattern pattern, hr, scrutinee => by
    rw [bindLabel, bindLabel, bindPattern_congr h pattern hr]
  | .constant expr, hr, scrutinee => by rw [bindLabel, bindLabel, eval_congr expr hr]
  | .default, _, scrutinee => by rw [bindLabel, bindLabel]

theorem runBody_congr : ∀ body : ArmBody, Reference.AllIn known body.references →
    runBody a body = runBody b body
  | .expr expr, hr => by rw [runBody, runBody, eval_congr expr hr]
  | .block block, hr => by rw [runBody, runBody, execBlock_congr block hr]

/-- **Executing a statement is the same walk in contexts that agree** on its lookups. -/
theorem exec_congr : ∀ s : Stmt, Reference.AllIn known s.references → exec a s = exec b s
  | .declare decl none _, _ => by
    rw [exec, exec, h.resolveVariable]
    simp only [h.declareLocal]
  | .declare decl (some init) _, hr => by
    rw [exec, exec, h.resolveVariable, eval_congr init hr]
    simp only [h.initLocal decl _ hr]
  | .expr expr _, hr => by rw [exec, exec, eval_congr expr hr]
  | .ifElse condition thenBranch elseBranch _, hr => by
    obtain ⟨hboth, helse⟩ := Reference.allIn_append.1 hr
    obtain ⟨hcondition, hthen⟩ := Reference.allIn_append.1 hboth
    rw [exec, exec, eval_congr condition hcondition, execBlock_congr thenBranch hthen,
      execOption_congr elseBranch helse]
  | .loop condition body _, hr => by
    obtain ⟨hcondition, hbody⟩ := Reference.allIn_append.1 hr
    rw [exec, exec, eval_congr condition hcondition, execBlock_congr body hbody]
  | .switch scrutinee arms _, hr => by
    obtain ⟨hscrutinee, harms⟩ := Reference.allIn_append.1 hr
    rw [exec, exec, eval_congr scrutinee hscrutinee]
    simp only [runArms_congr arms harms]
  | .ret none _, _ => by rw [exec, exec]
  | .ret (some value) _, hr => by
    rw [exec, exec, eval_congr value hr, h.returns, h.checkAgainst]
  | .block block _, hr => by rw [exec, exec, execBlock_congr block hr]

theorem execAll_congr : ∀ stmts : List Stmt, Reference.AllIn known (Stmt.listReferences stmts) →
    execAll a stmts = execAll b stmts
  | [], _ => by rw [execAll, execAll]
  | s :: rest, hr => by
    obtain ⟨hs, hrest⟩ := Reference.allIn_append.1 hr
    rw [execAll, execAll, exec_congr s hs, execAll_congr rest hrest]

theorem execBlock_congr : ∀ block : Block, Reference.AllIn known block.references →
    execBlock a block = execBlock b block
  | .mk stmts _, hr => by rw [execBlock, execBlock, execAll_congr stmts hr]

theorem execOption_congr : ∀ block : Option Block,
    Reference.AllIn known (Block.optionReferences block) → execOption a block = execOption b block
  | none, _ => by rw [execOption, execOption]
  | some block, hr => by rw [execOption, execOption, execBlock_congr block hr]

end

end Congruence

/-- A method starts from the same variables when the same is asked of its parameters. -/
theorem Env.ofParams_congr {a b : Model} {params : List Param}
    (h : ∀ p ∈ params, a.paramBinding p.id = b.paramBinding p.id) :
    Env.ofParams a params = Env.ofParams b params := by
  unfold Env.ofParams
  refine List.foldl_ext _ _ _ fun env p hp => ?_
  rw [h p hp]

/-- **What walking a method logs depends on the lookups that its body makes**, besides those about
the method itself and its parameters. -/
theorem checkMethod_of_agreesOn {known : Lookup → Prop} {names : Names} {model model' : Model}
    {m : Method}
    (h : (Context.ofMethod names model m).AgreesOn known (Context.ofMethod names model' m))
    (hparams : ∀ p ∈ m.params, known (.param p.id)) (hr : Reference.AllIn known m.references) :
    checkMethod names model m = checkMethod names model' m := by
  have henv : Env.ofParams model m.params = Env.ofParams model' m.params :=
    Env.ofParams_congr fun p hp => h.paramBinding (hparams p hp)
  rw [checkMethod_eq, checkMethod_eq]
  cases hbody : m.body with
  | none => rfl
  | some body =>
    obtain ⟨stmts, span⟩ := body
    have hstmts : Reference.AllIn known (Stmt.listReferences stmts) := by
      simpa [Method.references, hbody, Block.optionReferences, Block.references] using hr
    simp only [h.self, h.returns, henv, Block.stmts, execAll_congr h stmts hstmts]

end Closedness
