import Closedness.Proofs.Points
import Closedness.Proofs.Shape

/-!
# What is known of variables at every point

Wherever the walk through a method of a valid unit gets to, each variable holds a level of its own,
and a pinned one the level it is pinned at: assignments leave pinned variables alone, and where
paths join both carry the same pinned level. No expression is ever given the level of a member read
through an unknown receiver.
-/

namespace Closedness

/-- The variable holds a settled level; if it is pinned, then at a level that says something, which
it has; and an annotation of its own pins it. -/
structure VarState.Sound (s : VarState) : Prop where
  settled : s.level = .unchecked ∨ ∃ l, s.level = .level l
  pinned : ∀ {p}, s.pinned = some p → (p = .bound ∨ p = .closed) ∧ s.level = .level p
  pinnedAt : s.pinnedAt.isSome → s.pinned.isSome

/-- A variable in an allowed state is sound if its pin holds. -/
theorem Discipline.State.sound {D : Discipline} {s : VarState} (h : D.State s) (hpin : s.HoldsPin) :
    s.Sound where
  settled := by
    have hsettled := h.settled
    cases hlevel : s.level with
    | null => rw [hlevel] at hsettled; exact hsettled.elim
    | inherited r => rw [hlevel] at hsettled; exact hsettled.elim
    | unchecked => exact Or.inl rfl
    | level l => exact Or.inr ⟨l, rfl⟩
  pinned {p} hp := by
    refine ⟨?_, hpin p hp⟩
    have hne := (h.pinned hp).1
    cases p with
    | inherit => exact absurd rfl hne
    | bound => exact Or.inl rfl
    | closed => exact Or.inr rfl
  pinnedAt := h.pinnedAt

/-- Wherever the walk through a method of a valid unit gets to, no two variables share an id, and
those still to be declared are new. -/
theorem Reached.fresh {config : Config} {u : CompilationUnit} (hu : u.validate = .ok u)
    {m : Method} (hm : m ∈ u.allMethods) {p : Part} {env : Env}
    (h : Reached (config.context u m) m p env) : env.Fresh (Declaration.ids p.declarations) :=
  (h.point hu (Discipline.receivers_allows config.names u.declarations) hm).1.fresh

/-- At a point, every variable is sound. -/
theorem Point.sound {D : Discipline} {ctx : Context} {ds : List Declaration} {env : Env}
    (h : Point D ctx ds env) : env.All VarState.Sound :=
  .of_nodup h.fresh.nodup_ids fun hs => (h.states.of_get? hs).sound (h.pins hs)

/-- **At every point of the walk through a method of a valid unit all variables are sound**, those
that an inner scope hides included, and no expression has the level of a member of an unknown
receiver. -/
theorem reached_sound (config : Config) {u : CompilationUnit} (hu : u.validate = .ok u)
    {m : Method} (hm : m ∈ u.allMethods) {p : Part} {env : Env}
    (h : Reached (config.context u m) m p env) :
    env.All VarState.Sound ∧ (p.run (config.context u m) env).env.All VarState.Sound ∧
      ∀ e, p = .expr e → (eval (config.context u m) e env).value.level ≠ .inherited .inherit := by
  have hD := Discipline.receivers_allows config.names u.declarations
  obtain ⟨hpoint, hreceives⟩ := h.point hu hD hm
  obtain ⟨hafter, hlevel⟩ := hpoint.run (Discipline.within_context hD m) hreceives
  refine ⟨hpoint.sound, hafter.sound, ?_⟩
  rintro e rfl
  exact hlevel _ rfl

/-! ## A method that assigns to a pinned local on one path -/

namespace Branching

/-- What the method returns. -/
def result : Expr :=
  .var ⟨2⟩ (.spot 9)

/-- `m(@Closed Term x, Term y) { @Bound Term z = x; if (y) { z = y; y = x; } return y; }` -/
def method : Method :=
  let param (id : UInt32) (annots : List Annot) : Param :=
    { id := ⟨id⟩, name := "x", type := "Term", annots, isVarargs := false, span := .spot 0 }
  { id := ⟨0⟩
    name := "m"
    isStatic := true
    annots := []
    returnType := some "Term"
    params := [param 1 [{ name := "Closed", span := .spot 1 }], param 2 []]
    body := some (.mk [
      .declare
        { id := ⟨3⟩, name := "z", type := some "Term",
          annots := [{ name := "Bound", span := .spot 3 }], span := .spot 3 }
        (some (.var ⟨1⟩ (.spot 4))) (.spot 3),
      .ifElse (.var ⟨2⟩ (.spot 5))
        (.mk [
          .expr (.assign ⟨3⟩ (.var ⟨2⟩ (.spot 6)) (.spot 6)) (.spot 6),
          .expr (.assign ⟨2⟩ (.var ⟨1⟩ (.spot 7)) (.spot 7)) (.spot 7)] (.spot 6))
        none (.spot 5),
      .ret (some result) (.spot 8)] (.spot 2))
    span := .spot 0 }

/-- The unit that declares the method. -/
def unit : CompilationUnit :=
  { name := "branching", types := [], methods := [method] }

/-- The context in which the method is walked. -/
def context : Context :=
  ({} : Config).context unit method

end Branching

/-- Where the method returns, the local still has the level it is pinned at, although a value of
unknown level was assigned to it on one of the paths. -/
theorem reached_sound_branching :
    Branching.unit.validate = .ok Branching.unit ∧
      ∃ env, Reached Branching.context Branching.method (.expr Branching.result) env ∧
        env.get? ⟨3⟩ = some (.pin .bound (some (.spot 3)) (some "Term")) ∧
        env.All VarState.Sound := by
  have hstart : Reached Branching.context Branching.method _ _ := .start rfl
  have hreturn := (hstart.enter .restStmts).enter .restStmts
  have hresult := (hreturn.enter .firstStmt).enter .returned
  exact ⟨rfl, _, hresult, by decide, (reached_sound {} rfl List.mem_cons_self hresult).1⟩

end Closedness
