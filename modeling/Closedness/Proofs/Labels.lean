import Closedness.Proofs.Markers
import Closedness.Proofs.Renaming

/-!
# Places and names are only labels

A run never looks at a span: it carries the spans of annotations, expressions and patterns along and
puts them into its findings. So a unit whose spans are changed has the same findings at the changed
spans, in the same order. It follows that a finding can stand nowhere else than at one of those
places (`span_mem_sites`): a change of spans that leaves all of them alone, and moves only the span
of the finding, would have to move the finding. Display names and supertypes end up in notes at
most, so reports do not depend on them at all.
-/

namespace Closedness

/-! ## Sites -/

/-- Where the annotations of a node itself stand, and the node if it is an expression or a
pattern. -/
def Node.sites (n : Node) : List Span :=
  (n.declaration?.toList.flatMap Declaration.annots).map Annot.span ++
    match n with
    | .expr e => [e.span]
    | .pattern p => [p.span]
    | _ => []

/-- The places of the annotations, expressions and patterns of a unit. -/
def CompilationUnit.sites (u : CompilationUnit) : List Span :=
  (Node.unit u).all.flatMap Node.sites

section Relabelled

variable (r : Relabeling)

theorem Pattern.relabelList_eq (ps : List Pattern) : relabelList r ps = ps.map (relabel r) := by
  induction ps with
  | nil => rw [relabelList, List.map_nil]
  | cons p rest ih => rw [relabelList, ih, List.map_cons]

theorem Expr.relabelList_eq (es : List Expr) : relabelList r es = es.map (relabel r) := by
  induction es with
  | nil => rw [relabelList, List.map_nil]
  | cons e rest ih => rw [relabelList, ih, List.map_cons]

theorem Expr.relabelOption_eq (e : Option Expr) : relabelOption r e = e.map (relabel r) := by
  cases e <;> rw [relabelOption] <;> rfl

theorem Stmt.relabelList_eq (ss : List Stmt) : relabelList r ss = ss.map (relabel r) := by
  induction ss with
  | nil => rw [relabelList, List.map_nil]
  | cons s rest ih => rw [relabelList, ih, List.map_cons]

theorem Block.relabelOption_eq (b : Option Block) : relabelOption r b = b.map (relabel r) := by
  cases b <;> rw [relabelOption] <;> rfl

def Arm.relabel : Arm → Arm
  | .mk label body span => .mk (label.relabel r) (body.relabel r) (r.place span)

theorem Arm.relabelList_eq (arms : List Arm) : relabelList r arms = arms.map (relabel r) := by
  induction arms with
  | nil => rw [relabelList, List.map_nil]
  | cons arm rest ih =>
    obtain ⟨label, body, span⟩ := arm
    rw [relabelList, ih, List.map_cons, relabel]

def Node.relabel : Node → Node
  | .unit u => .unit (u.relabel r)
  | .type t => .type (t.relabel r)
  | .component c => .component (c.relabel r)
  | .method m => .method (m.relabel r)
  | .param p => .param (p.relabel r)
  | .block b => .block (b.relabel r)
  | .stmt s => .stmt (s.relabel r)
  | .expr e => .expr (e.relabel r)
  | .arm a => .arm (a.relabel r)
  | .pattern p => .pattern (p.relabel r)

end Relabelled

/-- What a node becomes depends on the new spans of its sites alone. -/
theorem Node.relabel_congr (r : Relabeling) {f g : Span → Span} (n : Node)
    (h : ∀ inner ∈ n.all, ∀ s ∈ inner.sites, f s = g s) :
    n.relabel { r with span := f } = n.relabel { r with span := g } := by
  have hself : ∀ s ∈ n.sites, f s = g s := h n (by rw [all_eq]; exact List.mem_cons_self)
  have hparts : ∀ part ∈ n.parts,
      part.relabel { r with span := f } = part.relabel { r with span := g } := by
    intro part hpart
    have := sizeOf_lt_of_mem_parts hpart
    refine part.relabel_congr r fun inner hinner => h inner ?_
    rw [all_eq]
    exact List.mem_cons_of_mem _ (List.mem_flatMap.2 ⟨part, hpart, hinner⟩)
  clear h
  cases n with
  | unit u =>
    simp_all [parts, relabel, CompilationUnit.relabel, or_imp, forall_and]
  | type t =>
    obtain ⟨id, name, annots, shape, supertypes, methods, span⟩ := t
    cases shape <;>
      simp_all [sites, declaration?, parts, relabel, TypeDecl.declaration, TypeDecl.components,
        TypeDecl.relabel, TypeShape.relabel, Annot.relabel, or_imp, forall_and]
  | component c =>
    simp_all [sites, declaration?, relabel, Component.declaration, Component.relabel, Annot.relabel]
  | method m =>
    obtain ⟨id, name, isStatic, annots, returnType, params, body, span⟩ := m
    cases body <;>
      simp_all [sites, declaration?, parts, relabel, Method.declaration, Method.relabel,
        Block.relabelOption_eq, Annot.relabel, or_imp, forall_and]
  | param p =>
    simp_all [sites, declaration?, relabel, Param.declaration, Param.relabel, Annot.relabel]
  | block b =>
    obtain ⟨stmts, span⟩ := b
    simp_all [parts, relabel, Block.relabel, Block.stmts, Stmt.relabelList_eq]
  | stmt s =>
    cases s with
    | declare decl init span =>
      cases init <;>
        simp_all [sites, declaration?, parts, relabel, Stmt.relabel, LocalDecl.declaration,
          LocalDecl.relabel, Expr.relabelOption_eq, Annot.relabel]
    | ifElse condition thenBranch elseBranch span =>
      cases elseBranch <;> simp_all [parts, relabel, Stmt.relabel, Block.relabelOption_eq]
    | ret value span =>
      cases value <;> simp_all [parts, relabel, Stmt.relabel, Expr.relabelOption_eq]
    | _ => simp_all [parts, relabel, Stmt.relabel, Arm.relabelList_eq]
  | expr e =>
    cases e with
    | field receiver component span =>
      cases receiver <;>
        simp_all [sites, declaration?, parts, relabel, Expr.relabel, Expr.relabelOption_eq,
          Expr.span]
    | call receiver method args span =>
      cases receiver <;>
        simp_all [sites, declaration?, parts, relabel, Expr.relabel, Expr.relabelOption_eq,
          Expr.relabelList_eq, Expr.span]
    | _ =>
      simp_all [sites, declaration?, parts, relabel, Expr.relabel, Arm.relabelList_eq,
        Expr.relabelList_eq, Expr.span]
  | arm a =>
    obtain ⟨label, body, span⟩ := a
    cases label <;> cases body <;>
      simp_all [parts, relabel, Arm.relabel, Label.relabel, ArmBody.relabel, Label.node?,
        ArmBody.node]
  | pattern p =>
    cases p with
    | typeTest type var span =>
      cases var <;>
        simp_all [sites, declaration?, relabel, Pattern.relabel, Pattern.span,
          PatternVar.declaration, PatternVar.relabel, Annot.relabel, or_imp, forall_and]
    | «variable» var span =>
      simp_all [sites, declaration?, relabel, Pattern.relabel, Pattern.span,
        PatternVar.declaration, PatternVar.relabel, Annot.relabel, or_imp, forall_and]
    | _ =>
      simp_all [sites, declaration?, parts, relabel, Pattern.relabel, Pattern.span,
        Pattern.relabelList_eq]
termination_by sizeOf n

/-- Relabelling a unit depends on what happens to its sites, and to no other place. -/
theorem CompilationUnit.relabel_congr (r : Relabeling) {f g : Span → Span} (u : CompilationUnit)
    (h : ∀ s ∈ u.sites, f s = g s) :
    u.relabel { r with span := f } = u.relabel { r with span := g } :=
  Node.unit.inj (Node.relabel_congr r (.unit u) fun inner hinner s hs =>
    h s (List.mem_flatMap.2 ⟨inner, hinner, hs⟩))

/-! ## Findings stand at sites -/

/-- A relabelled unit gives the relabelled diagnostics, in the same order. -/
theorem diagnostics_runLog_relabel {r : Relabeling} (hr : Function.Injective r.decl)
    (config : Config) (u : CompilationUnit) :
    Event.diagnostics (runLog config (u.relabel r))
      = (Event.diagnostics (runLog config u)).map (Diagnostic.relabel r) := by
  rw [runLog_relabel hr, Event.diagnostics_relabel]

theorem Span.exists_ne (span : Span) : ∃ other : Span, other ≠ span := by
  by_cases h : span = .spot 0
  · exact ⟨.spot 1, by rw [h]; decide⟩
  · exact ⟨.spot 0, Ne.symm h⟩

/-- **Findings stand at annotations, expressions and patterns.** -/
theorem span_mem_sites {config : Config} {u : CompilationUnit} {d : Diagnostic}
    (hd : d ∈ Event.diagnostics (runLog config u)) : d.span ∈ u.sites := by
  by_contra hout
  -- moves the finding, but none of the sites
  obtain ⟨elsewhere, hmoves⟩ := d.span.exists_ne
  let f : Span → Span := fun s => if s = d.span then elsewhere else s
  have hsites : ∀ s ∈ u.sites, f s = s := by
    intro s hs
    refine if_neg fun heq => hout ?_
    rwa [← heq]
  -- no other span matters, so the two units differ at the sites at most
  let r : Relabeling := { place := fun _ => elsewhere }
  have hunit : u.relabel { r with span := f } = u.relabel r := u.relabel_congr r hsites
  have hmap := congrArg (fun u => Event.diagnostics (runLog config u)) hunit
  simp only [diagnostics_runLog_relabel (r := { r with span := f }) Function.injective_id,
    diagnostics_runLog_relabel (r := r) Function.injective_id, List.map_inj_left] at hmap
  have hspan : f d.span = d.span := congrArg Diagnostic.span (hmap d hd)
  rw [show f d.span = elsewhere from if_pos rfl] at hspan
  exact hmoves hspan

/-! ## Reports -/

/-- The unit whose spans are all changed by `f`. -/
def CompilationUnit.moved (f : Span → Span) (u : CompilationUnit) : CompilationUnit :=
  u.relabel { span := f }

/-- The unit without display names and supertypes. -/
def CompilationUnit.anonymous (u : CompilationUnit) : CompilationUnit :=
  u.relabel { name := fun _ => "", supertypes := fun _ => [] }

theorem Relabeling.decl_injective {r : Relabeling} (hdecl : ∀ id, r.decl id = id) :
    Function.Injective r.decl := by
  intro a b h
  rwa [hdecl, hdecl] at h

section Reports

variable {r : Relabeling} (hdecl : ∀ id, r.decl id = id) (config : Config) (u : CompilationUnit)
include hdecl

/-- Under labels that keep the ids, the same declarations are unreliable. -/
theorem check_unreliable_eq :
    (check config (u.relabel r)).unreliable = (check config u).unreliable := by
  have hsorted := pairwise_check_unreliable config u
  rw [check_unreliable_relabel (Relabeling.decl_injective hdecl), List.map_id'' hdecl]
  refine Findings.eq_of_mem_iff (Findings.pairwise_sortIds (hsorted.imp ?_)) hsorted fun id =>
    Findings.mem_sortIds
  rintro a b hlt rfl
  exact UInt32.lt_irrefl _ hlt

/-- A report under labels that keep the ids and the order of the sites is the report relabelled. -/
theorem check_relabel
    (horder : ∀ a ∈ u.sites, ∀ b ∈ u.sites,
      (r.span a).start ≤ (r.span b).start ↔ a.start ≤ b.start) :
    check config (u.relabel r) =
      { check config u with
        diagnostics := (check config u).diagnostics.map (Diagnostic.relabel r) } := by
  have hsorted : (check config (u.relabel r)).diagnostics
      = (check config u).diagnostics.map (Diagnostic.relabel r) := by
    rw [check_diagnostics_relabel (Relabeling.decl_injective hdecl), check_diagnostics_eq_sort]
    refine (List.map_mergeSort fun a ha b hb => ?_).symm
    exact decide_eq_decide.2 (horder _ (span_mem_sites ha) _ (span_mem_sites hb)).symm
  exact congr (congrArg (Report.mk u.name) hsorted) (check_unreliable_eq hdecl config u)

end Reports

/-- Display names and supertypes do not show in a report. -/
theorem check_anonymous (config : Config) (u : CompilationUnit) :
    check config u.anonymous = check config u := by
  have hlabels := check_relabel (r := { name := fun _ => "", supertypes := fun _ => [] })
    (fun _ => rfl) config u fun _ _ _ _ => Iff.rfl
  have hsame : Diagnostic.relabel { name := fun _ => "", supertypes := fun _ => [] } = id := rfl
  rwa [hsame, List.map_id] at hlabels

/-- **Places and names are only labels.** A unit whose spans are changed has the same findings, in
the order in which they are found, at the changed spans. Every finding stands at an annotation, an
expression or a pattern; where a change keeps the order of these, the report changes in nothing but
the spans. And units that differ in display names and supertypes alone have the same report. -/
theorem labels_are_opaque (config : Config) (u : CompilationUnit) (f : Span → Span) :
    Event.diagnostics (runLog config (u.moved f)) =
      (Event.diagnostics (runLog config u)).map (fun d => { d with span := f d.span }) ∧
    (∀ d ∈ (check config u).diagnostics, d.span ∈ u.sites) ∧
    ((∀ a ∈ u.sites, ∀ b ∈ u.sites, (f a).start ≤ (f b).start ↔ a.start ≤ b.start) →
      check config (u.moved f) =
        { check config u with
          diagnostics := (check config u).diagnostics.map fun d => { d with span := f d.span } }) ∧
    ∀ u' : CompilationUnit, u'.anonymous = u.anonymous → check config u' = check config u := by
  refine ⟨diagnostics_runLog_relabel (r := { span := f }) Function.injective_id config u, ?_,
    check_relabel (r := { span := f }) (fun _ => rfl) config u, ?_⟩
  · intro d hd
    rw [check_diagnostics_eq_sort] at hd
    exact span_mem_sites ((Findings.sortDiagnostics_perm _).mem_iff.1 hd)
  · intro u' hu'
    rw [← check_anonymous config u', hu', check_anonymous]

/-- The sites of a unit with contradictory markers are its two annotations and the value it
returns. -/
theorem sites_contradictory : contradictory.sites = [.spot 1, .spot 2, .spot 5] := by
  simp [CompilationUnit.sites, contradictory, Node.all_eq, Node.parts, Node.sites,
    Node.declaration?, TypeDecl.declaration, TypeDecl.components, Method.declaration,
    Param.declaration, Block.stmts, Expr.span]

/-- Further down in the source, under other names, the contradiction is the same. -/
theorem labels_are_opaque_contradictory :
    let down (s : Span) : Span := { s with start := s.start + 100, stop := s.stop + 100 }
    let renamed : CompilationUnit :=
      { contradictory with
        types := contradictory.types.map fun t => { t with supertypes := ["Object"] }
        methods := contradictory.methods.map fun m => { m with name := "n" } }
    (.annotationConflict (.spot 1) "NoInherit" "Inherit") ∈ (check {} contradictory).diagnostics ∧
      (.annotationConflict (.spot 101) "NoInherit" "Inherit") ∈
        (check {} (contradictory.moved down)).diagnostics ∧
      check {} renamed = check {} contradictory := by
  intro down renamed
  obtain ⟨-, -, hmoved, hrenamed⟩ := labels_are_opaque {} contradictory down
  have hfound : (.annotationConflict (.spot 1) "NoInherit" "Inherit") ∈
      (check {} contradictory).diagnostics := by
    apply (check_diagnostics_perm {} contradictory).mem_iff.2
    decide
  refine ⟨hfound, ?_, hrenamed renamed rfl⟩
  rw [hmoved (by rw [sites_contradictory]; decide)]
  exact List.mem_map.2 ⟨_, hfound, rfl⟩

end Closedness
