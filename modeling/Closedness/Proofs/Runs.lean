import Closedness.CommandLine
import Closedness.Proofs.Markers
import Closedness.Proofs.RoundTrip

/-!
# Runs over several units

A command line is a sequence of arguments (`Arg`), in any order: options, and units to check. What
it asks for depends on which options there are and on the order of the units alone (`parse_line`).
Without a trace, a run over several units is put together from the runs over each of them under the
same options: either all can be loaded and the reports are printed one after the other
(`run_loaded`), or nothing is printed but the error of the first that cannot (`run_failed`).
-/

namespace Closedness

/-! ## Reports as text -/

@[simp] theorem Diagnostic.writable_toJson (d : Diagnostic) : d.toJson.Writable := by
  obtain ⟨span, kind, severity, required, actual, message⟩ := d
  cases required <;> cases actual <;> simp [toJson, levelMember]

@[simp] theorem Report.writable_toJson (r : Report) : r.toJson.Writable := by
  simp [toJson]

namespace CommandLine

/-! ## Command lines -/

/-- What a command line consists of. -/
inductive Arg where
  /-- Reports are printed as JSON. -/
  | json
  /-- Warnings count as failures. -/
  | denyWarnings
  /-- The configuration file to use. -/
  | config (path : String)
  /-- A unit to check. -/
  | input (path : String)
deriving DecidableEq

namespace Arg

/-- The argument as it is written. -/
def words : Arg → List String
  | .json => ["--json"]
  | .denyWarnings => ["--deny-warnings"]
  | .config path => ["-c", path]
  | .input path => [path]

def input? : Arg → Option String
  | .input path => some path
  | _ => none

def config? : Arg → Option String
  | .config path => some path
  | _ => none

/-- The request, with what the argument asks for. -/
def apply (request : Request) : Arg → Request
  | .json => { request with json := true }
  | .denyWarnings => { request with denyWarnings := true }
  | .config path => { request with config := some path }
  | .input path => { request with inputs := request.inputs ++ [path] }

end Arg

/-- The arguments as they are written. -/
def line (args : List Arg) : List String :=
  args.flatMap Arg.words

/-- The units to check, in order. -/
def inputs (args : List Arg) : List String :=
  args.filterMap Arg.input?

/-- The configuration files named. -/
def configs (args : List Arg) : List String :=
  args.filterMap Arg.config?

/-- Everything but the units to check. -/
def options (args : List Arg) : List Arg :=
  args.filter fun a => a.input? = none

/-- What the arguments ask for. -/
def requestOf (args : List Arg) : Request :=
  { inputs := inputs args
    config := (configs args).getLast?
    json := Arg.json ∈ args
    denyWarnings := Arg.denyWarnings ∈ args }

/-- What the arguments ask for: all the inputs, and the last configuration. -/
theorem foldl_apply (args : List Arg) (request : Request) :
    args.foldl Arg.apply request =
      { request with
        inputs := request.inputs ++ inputs args
        config := (configs args).getLast?.or request.config
        json := request.json || decide (Arg.json ∈ args)
        denyWarnings := request.denyWarnings || decide (Arg.denyWarnings ∈ args) } := by
  induction args generalizing request with
  | nil => simp [inputs, configs]
  | cons a rest ih =>
    rw [List.foldl_cons, ih]
    cases a with
    | config path =>
      have hconfigs : configs (.config path :: rest) = path :: configs rest := rfl
      rw [hconfigs, List.getLast?_cons]
      cases (configs rest).getLast? <;> simp [Arg.apply, inputs, Arg.input?, List.filterMap_cons]
    | _ => simp [Arg.apply, inputs, configs, Arg.input?, Arg.config?, List.filterMap_cons]

/-- Arguments are read as what they are written for. -/
theorem parse_line {args : List Arg} (hpaths : ∀ p ∈ inputs args, isOption p = false)
    (request : Request) : request.parse (line args) = .ok (args.foldl Arg.apply request) := by
  induction args generalizing request with
  | nil => rfl
  | cons a rest ih =>
    have hrest : ∀ p ∈ inputs rest, isOption p = false := fun p hp => hpaths p (by
      obtain ⟨b, hb, hp⟩ := List.mem_filterMap.1 hp
      exact List.mem_filterMap.2 ⟨b, List.mem_cons_of_mem _ hb, hp⟩)
    have hline : line (a :: rest) = a.words ++ line rest := List.flatMap_cons
    rw [hline, List.foldl_cons, ← ih hrest]
    cases a with
    | json | denyWarnings | config =>
      rw [Request.parse.eq_def]
      simp [Arg.words, Arg.apply]
    | input path =>
      have hpath : isOption path = false := hpaths path (by simp [inputs, Arg.input?])
      -- all that is written as an option starts with a dash
      have hne : ∀ word, isOption word = true → path ≠ word := by
        rintro word hword rfl
        rw [hpath] at hword
        cases hword
      have hoptions : path ≠ "-h" ∧ path ≠ "--help" ∧ path ≠ "-v" ∧ path ≠ "--version" ∧
          path ≠ "-c" ∧ path ≠ "--config" ∧ path ≠ "--json" ∧ path ≠ "--deny-warnings" := by
        refine ⟨?_, ?_, ?_, ?_, ?_, ?_, ?_, ?_⟩ <;> exact hne _ (by decide)
      rw [Request.parse.eq_def]
      simp [Arg.words, Arg.apply, hoptions, hpath]

/-- A command line that can be run: it names units, none of them written as an option, and at most
one configuration; the configuration can be loaded. -/
structure Runnable (reasons : Reasons) (files : Files) (config : Config) (args : List Arg) :
    Prop where
  inputs_ne : inputs args ≠ []
  paths : ∀ p ∈ inputs args, isOption p = false
  configs_le : (configs args).length ≤ 1
  loads : loadConfig reasons files (configs args).getLast? = .ok config

section Runs

variable {reasons : Reasons} {files : Files} {config : Config} {args : List Arg}

theorem Runnable.run_eq (h : Runnable reasons files config args) :
    run reasons files false (line args) =
      checkInputs reasons files false (requestOf args) config := by
  have hrequest : args.foldl Arg.apply {} = requestOf args := by
    simp [foldl_apply, requestOf]
  have hloads : loadConfig reasons files (requestOf args).config = .ok config := h.loads
  have hinputs : (requestOf args).inputs ≠ [] := h.inputs_ne
  rw [run, parse_line h.paths, hrequest]
  simp only [runRequest, if_neg hinputs, hloads]
  rfl

theorem configs_options (args : List Arg) : configs (options args) = configs args := by
  rw [configs, options, List.filterMap_filter, configs]
  congr 1
  funext a
  cases a <;> rfl

/-- Under the same options a unit can be checked alone, and the same is asked for. -/
theorem Runnable.alone (h : Runnable reasons files config args) {p : String} (hp : p ∈ inputs args)
    {single : List Arg} (hinputs : inputs single = [p])
    (hoptions : (options single).Perm (options args)) :
    Runnable reasons files config single ∧
      requestOf single = { requestOf args with inputs := [p] } := by
  have hconfigs : configs single = configs args := by
    have hperm : (configs single).Perm (configs args) := by
      rw [← configs_options single, ← configs_options args]
      exact hoptions.filterMap _
    -- there is one at most, so there is one order only
    match hargs : configs args, h.configs_le with
    | [], _ => rw [hargs] at hperm; exact hperm.eq_nil
    | [path], _ => rw [hargs] at hperm; exact List.perm_singleton.1 hperm
  have hmem : ∀ a : Arg, a.input? = none → (a ∈ single ↔ a ∈ args) := by
    intro a ha
    have hfilter : ∀ as : List Arg, a ∈ options as ↔ a ∈ as := by simp [options, ha]
    rw [← hfilter single, ← hfilter args, hoptions.mem_iff]
  constructor
  · refine ⟨by simp [hinputs], ?_, hconfigs ▸ h.configs_le, hconfigs ▸ h.loads⟩
    intro q hq
    rw [hinputs, List.mem_singleton] at hq
    exact h.paths q (hq ▸ hp)
  · simp [requestOf, hinputs, hconfigs, hmem .json rfl, hmem .denyWarnings rfl]

/-! ## Checking several units -/

/-- Where all units can be loaded, each of them is reported. -/
theorem checkAll_loaded {paths : List String} {unit : String → CompilationUnit}
    (h : ∀ p ∈ paths, loadUnit reasons files p = .ok (unit p)) :
    checkAll reasons files false config paths =
      { reports := paths.map fun p => check config (unit p) } := by
  induction paths with
  | nil => rfl
  | cons p rest ih =>
    rw [checkAll, h p List.mem_cons_self, ih fun q hq => h q (List.mem_cons_of_mem _ hq)]
    rfl

/-- The first unit that cannot be loaded ends the run. -/
theorem checkAll_failed (config : Config) {before : List String}
    (hbefore : ∀ q ∈ before, ∃ u, loadUnit reasons files q = .ok u) {p : String} {e : LoadError}
    (hp : loadUnit reasons files p = .error e) (after : List String) :
    (checkAll reasons files false config (before ++ p :: after)).error = some (p, e) ∧
      (checkAll reasons files false config (before ++ p :: after)).trace = "" := by
  induction before with
  | nil =>
    rw [List.nil_append, checkAll, hp]
    exact ⟨rfl, rfl⟩
  | cons q rest ih =>
    obtain ⟨u, hu⟩ := hbefore q List.mem_cons_self
    obtain ⟨herror, htrace⟩ := ih fun q hq => hbefore q (List.mem_cons_of_mem _ hq)
    rw [List.cons_append, checkAll, hu]
    exact ⟨herror, by simp [htrace]⟩

/-- What a run leaves whose units are all reported. -/
def success (args : List Arg) (reports : List Report) : Result :=
  { status := reportStatus (requestOf args).denyWarnings reports
    stdout := reportText (requestOf args).json reports }

/-- What a run leaves that stops at a unit. -/
def failure (path : String) (e : LoadError) : Result :=
  { status := statusUsage, stderr := "Error: " ++ path ++ ": " ++ e.message ++ "\n" }

/-- A run whose units can all be loaded reports them. -/
theorem Runnable.run_loaded (h : Runnable reasons files config args)
    {unit : String → CompilationUnit}
    (hload : ∀ p ∈ inputs args, loadUnit reasons files p = .ok (unit p)) :
    run reasons files false (line args) =
      success args ((inputs args).map fun p => check config (unit p)) := by
  have hinputs : (requestOf args).inputs = inputs args := rfl
  rw [h.run_eq, checkInputs, hinputs, checkAll_loaded hload]
  rfl

/-- A run stops at the first unit that cannot be loaded. -/
theorem Runnable.run_failed (h : Runnable reasons files config args) {before after : List String}
    {p : String} (hinputs : inputs args = before ++ p :: after) {e : LoadError}
    (hbefore : ∀ q ∈ before, ∃ u, loadUnit reasons files q = .ok u)
    (hp : loadUnit reasons files p = .error e) :
    run reasons files false (line args) = failure p e := by
  obtain ⟨herror, htrace⟩ := checkAll_failed config hbefore hp after
  have hrequest : (requestOf args).inputs = before ++ p :: after := hinputs
  rw [h.run_eq, checkInputs, hrequest, herror, htrace]
  rfl

end Runs

/-! ## What is printed -/

/-- The text is a JSON array with the given elements, and a line break. -/
structure PrintsArray (text : String) (elements : List Json) : Prop where
  text_eq : text = (Json.array elements).pretty ++ "\n"
  parses : Json.parse? text = some (.array elements)

theorem printsArray_reportText (reports : List Report) :
    PrintsArray (reportText true reports) (reports.map Report.toJson) := by
  refine ⟨rfl, Json.parse?_of_padded ?_⟩
  have hwritable := Json.writable_ofList Report.writable_toJson reports
  have htext : (reportText true reports).toList =
      (Report.listText reports).toList ++ Json.newline 0 := String.toList_append
  rw [htext]
  exact (Json.padded_pretty hwritable).append (Json.blanks_newline 0)

/-- Texts are printed one after the other. -/
theorem reportText_eq_join (reports : List Report) :
    reportText false reports = String.join (reports.map fun r => reportText false [r]) := by
  induction reports with
  | nil => rfl
  | cons r rest ih =>
    rw [List.map_cons, String.join_cons, ← ih]
    simp [reportText]

/-- The least severity of a finding that makes a run fail. -/
def failingSeverity (denyWarnings : Bool) : Severity :=
  if denyWarnings then .warning else .error

section Status

variable {denyWarnings : Bool} {reports : List Report}

/-- A run fails when some report holds a finding that is severe enough. -/
theorem reportStatus_eq : reportStatus denyWarnings reports =
    if reports.any fun r => 0 < r.countAtLeast (failingSeverity denyWarnings) then 1 else 0 :=
  rfl

/-- A run fails if one of its reports has a failing finding. -/
theorem reportStatus_eq_one_iff : reportStatus denyWarnings reports = 1 ↔
    ∃ r ∈ reports, ∃ d ∈ r.diagnostics,
      (failingSeverity denyWarnings).rank ≤ d.severity.rank := by
  have hany : (reports.any fun r => 0 < r.countAtLeast (failingSeverity denyWarnings)) = true ↔
      ∃ r ∈ reports, ∃ d ∈ r.diagnostics,
        (failingSeverity denyWarnings).rank ≤ d.severity.rank := by
    simp [Report.countAtLeast, List.countP_pos_iff]
  rw [← hany, reportStatus_eq]
  split
  · next h => exact ⟨fun _ => h, fun _ => rfl⟩
  · next h => exact ⟨nofun, fun h' => absurd h' h⟩

theorem reportStatus_zero_or_one (denyWarnings : Bool) (reports : List Report) :
    reportStatus denyWarnings reports = 0 ∨ reportStatus denyWarnings reports = 1 := by
  rw [reportStatus_eq]
  split
  · exact Or.inr rfl
  · exact Or.inl rfl

/-- The status of a run is the greatest of the statuses of its reports. -/
theorem reportStatus_max (hne : reports ≠ []) :
    (reports.map fun r => reportStatus denyWarnings [r]).max?
      = some (reportStatus denyWarnings reports) := by
  have hfails : ∀ r ∈ reports, reportStatus denyWarnings [r] = 1 →
      reportStatus denyWarnings reports = 1 := by
    intro r hr hone
    obtain ⟨r', hr', hd⟩ := reportStatus_eq_one_iff.1 hone
    rw [List.mem_singleton] at hr'
    exact reportStatus_eq_one_iff.2 ⟨r, hr, hr' ▸ hd⟩
  rw [List.max?_eq_some_iff]
  refine ⟨?_, ?_⟩
  · rcases reportStatus_zero_or_one denyWarnings reports with hzero | hone
    · obtain ⟨r, hr⟩ := List.exists_mem_of_ne_nil reports hne
      refine List.mem_map.2 ⟨r, hr, ?_⟩
      rcases reportStatus_zero_or_one denyWarnings [r] with h | h
      · rw [h, hzero]
      · rw [hfails r hr h] at hzero
        cases hzero
    · obtain ⟨r, hr, hd⟩ := reportStatus_eq_one_iff.1 hone
      refine List.mem_map.2 ⟨r, hr, ?_⟩
      rw [hone]
      exact reportStatus_eq_one_iff.2 ⟨r, List.mem_singleton_self r, hd⟩
  · intro status hstatus
    obtain ⟨r, hr, rfl⟩ := List.mem_map.1 hstatus
    rcases reportStatus_zero_or_one denyWarnings [r] with h | h
    · rw [h]
      exact Nat.zero_le _
    · rw [h, hfails r hr h]

end Status

section Success

variable {args : List Arg} {reports : List Report}

/-- The status of a run is the highest of those that its units have alone. -/
theorem max?_status_success (hne : reports ≠ []) :
    (reports.map fun r => (success args [r]).status).max? = some (success args reports).status :=
  reportStatus_max hne

/-- Without JSON output, a run prints what its units print alone. -/
theorem stdout_success_of_not_json (hjson : Arg.json ∉ args) :
    (success args reports).stdout =
      String.join (reports.map fun r => (success args [r]).stdout) := by
  simp only [success, requestOf, hjson, decide_false]
  exact reportText_eq_join reports

theorem stdout_success_of_json (hjson : Arg.json ∈ args) :
    PrintsArray (success args reports).stdout (reports.map Report.toJson) := by
  simp only [success, requestOf, hjson, decide_true]
  exact printsArray_reportText reports

end Success

/-! ## Runs compose -/

section Composition

variable {reasons : Reasons} {files : Files} {config : Config} {args : List Arg}
  (h : Runnable reasons files config args)
  {alone : String → List Arg}
  (halone : ∀ p ∈ inputs args, inputs (alone p) = [p] ∧ (options (alone p)).Perm (options args))

include h halone

/-- A unit that can be loaded is reported when it is checked alone. -/
theorem run_alone_loaded {p : String} (hp : p ∈ inputs args) {u : CompilationUnit}
    (hu : loadUnit reasons files p = .ok u) :
    run reasons files false (line (alone p)) = success args [check config u] := by
  obtain ⟨hinputs, hoptions⟩ := halone p hp
  obtain ⟨hrunnable, hrequest⟩ := h.alone hp hinputs hoptions
  have hload : ∀ q ∈ inputs (alone p), loadUnit reasons files q = .ok ((fun _ => u) q) := by
    simpa [hinputs] using hu
  rw [hrunnable.run_loaded hload, success, success, hrequest, hinputs]
  rfl

/-- A unit that cannot be loaded is an error when it is checked alone. -/
theorem run_alone_failed {p : String} (hp : p ∈ inputs args) {e : LoadError}
    (he : loadUnit reasons files p = .error e) :
    run reasons files false (line (alone p)) = failure p e := by
  obtain ⟨hinputs, hoptions⟩ := halone p hp
  obtain ⟨hrunnable, -⟩ := h.alone hp hinputs hoptions
  have hfirst : inputs (alone p) = [] ++ p :: [] := hinputs
  exact hrunnable.run_failed hfirst (fun q hq => nomatch hq) he

/-- The status of a unit checked alone tells whether it can be loaded. -/
theorem loads_of_status {p : String} (hp : p ∈ inputs args)
    (hstatus : (run reasons files false (line (alone p))).status ≠ 2) :
    ∃ u, loadUnit reasons files p = .ok u := by
  cases hload : loadUnit reasons files p with
  | ok u => exact ⟨u, rfl⟩
  | error e =>
    rw [run_alone_failed h halone hp hload] at hstatus
    exact absurd rfl hstatus

/-- Units that can all be loaded are reported together as they are reported alone. -/
theorem exists_reports (hloads : ∀ p ∈ inputs args, ∃ u, loadUnit reasons files p = .ok u) :
    ∃ report : String → Report,
      (∀ p ∈ inputs args, ∃ u, loadUnit reasons files p = .ok u ∧ report p = check config u) ∧
      (∀ p ∈ inputs args, run reasons files false (line (alone p)) = success args [report p]) ∧
      run reasons files false (line args) = success args ((inputs args).map report) := by
  have hinhabited : Nonempty CompilationUnit := ⟨{ name := "", types := [], methods := [] }⟩
  choose! unit hunit using hloads
  exact ⟨fun p => check config (unit p), fun p hp => ⟨unit p, hunit p hp, rfl⟩,
    fun p hp => run_alone_loaded h halone hp (hunit p hp), h.run_loaded hunit⟩

/-- A run leaves what the first unit leaves that fails alone. -/
theorem run_of_first_failure {before after : List String} {p : String}
    (hinputs : inputs args = before ++ p :: after)
    (hbefore : ∀ q ∈ before, (run reasons files false (line (alone q))).status ≠ 2)
    (hp : (run reasons files false (line (alone p))).status = 2) :
    run reasons files false (line args) =
      { status := 2, stdout := "",
        stderr := (run reasons files false (line (alone p))).stderr } := by
  have hmem : p ∈ inputs args := hinputs ▸ List.mem_append_right _ List.mem_cons_self
  cases hload : loadUnit reasons files p with
  | ok u =>
    rw [run_alone_loaded h halone hmem hload] at hp
    rcases reportStatus_zero_or_one (requestOf args).denyWarnings [check config u] with
      hzero | hone
    · cases hzero.symm.trans hp
    · cases hone.symm.trans hp
  | error e =>
    have hloads : ∀ q ∈ before, ∃ u, loadUnit reasons files q = .ok u := by
      intro q hq
      have hq' : q ∈ inputs args := hinputs ▸ List.mem_append_left _ hq
      exact loads_of_status h halone hq' (hbefore q hq)
    rw [run_alone_failed h halone hmem hload, h.run_failed hinputs hloads hload]
    rfl

/-- A run has the status of failing findings if it reports one. -/
theorem status_eq_one_iff : (run reasons files false (line args)).status = 1 ↔
    (∀ p ∈ inputs args, ∃ u, loadUnit reasons files p = .ok u) ∧
    ∃ p ∈ inputs args, ∃ u, loadUnit reasons files p = .ok u ∧ ∃ d ∈ (check config u).diagnostics,
      (failingSeverity (Arg.denyWarnings ∈ args)).rank ≤ d.severity.rank := by
  by_cases hloads : ∀ p ∈ inputs args, ∃ u, loadUnit reasons files p = .ok u
  · obtain ⟨report, hreport, -, hrun⟩ := exists_reports h halone hloads
    have hstatus : (success args ((inputs args).map report)).status = 1 ↔ _ :=
      reportStatus_eq_one_iff
    rw [hrun, hstatus]
    constructor
    · rintro ⟨r, hr, hd⟩
      obtain ⟨p, hp, rfl⟩ := List.mem_map.1 hr
      obtain ⟨u, hu, heq⟩ := hreport p hp
      exact ⟨hloads, p, hp, u, hu, heq ▸ hd⟩
    · rintro ⟨-, p, hp, u, hu, hd⟩
      obtain ⟨u', hu', heq⟩ := hreport p hp
      rw [hu] at hu'
      cases hu'
      exact ⟨report p, List.mem_map_of_mem hp, heq ▸ hd⟩
  · -- some unit fails, and the first such ends the run
    have hfails : ((inputs args).find?
        fun p => (run reasons files false (line (alone p))).status = 2).isSome := by
      by_contra hnone
      refine hloads fun p hp => loads_of_status h halone hp ?_
      simpa using List.find?_eq_none.1 (Option.not_isSome_iff_eq_none.1 hnone) p hp
    obtain ⟨p, hp⟩ := Option.isSome_iff_exists.1 hfails
    obtain ⟨hstatus, before, after, hinputs, hbefore⟩ := List.find?_eq_some_iff_append.1 hp
    rw [run_of_first_failure h halone hinputs (by simpa using hbefore) (of_decide_eq_true hstatus)]
    exact ⟨nofun, fun hall => absurd hall.1 hloads⟩

end Composition

/-- **Runs compose.** Where every unit can be checked alone, the run over all of them has the
greatest of their statuses and prints what they print, one after the other or as one array; where
one cannot, the run leaves what the first such unit leaves. A run fails just when it reports a
finding that is severe enough. -/
theorem runs_compose {reasons : Reasons} {files : Files} {config : Config} {args : List Arg}
    (h : Runnable reasons files config args) {alone : String → List Arg}
    (halone : ∀ p ∈ inputs args,
      inputs (alone p) = [p] ∧ (options (alone p)).Perm (options args)) :
    let joint := run reasons files false (line args)
    let single (p : String) := run reasons files false (line (alone p))
    ((∀ p ∈ inputs args, (single p).status = 0 ∨ (single p).status = 1) →
      ((inputs args).map fun p => (single p).status).max? = some joint.status ∧
      joint.stderr = "" ∧
      (Arg.json ∉ args →
        joint.stdout = String.join ((inputs args).map fun p => (single p).stdout)) ∧
      (Arg.json ∈ args → ∃ elements : String → List Json,
        (∀ p ∈ inputs args, PrintsArray (single p).stdout (elements p)) ∧
        PrintsArray joint.stdout ((inputs args).flatMap elements))) ∧
    (∀ before p after, inputs args = before ++ p :: after →
      (∀ q ∈ before, (single q).status ≠ 2) → (single p).status = 2 →
      joint = { status := 2, stdout := "", stderr := (single p).stderr }) ∧
    (joint.status = 1 ↔
      (∀ p ∈ inputs args, ∃ u, loadUnit reasons files p = .ok u) ∧
      ∃ p ∈ inputs args, ∃ u, loadUnit reasons files p = .ok u ∧ ∃ d ∈ (check config u).diagnostics,
        (failingSeverity (Arg.denyWarnings ∈ args)).rank ≤ d.severity.rank) := by
  intro joint single
  refine ⟨fun hstatus => ?_, fun before p after =>
    run_of_first_failure h halone, status_eq_one_iff h halone⟩
  have hloads : ∀ p ∈ inputs args, ∃ u, loadUnit reasons files p = .ok u := by
    intro p hp
    refine loads_of_status h halone hp fun htwo => ?_
    rcases hstatus p hp with hzero | hone
    · cases hzero.symm.trans htwo
    · cases hone.symm.trans htwo
  obtain ⟨report, -, hsingle, hjoint⟩ := exists_reports h halone hloads
  have hmap : ∀ {α : Type} (f : Result → α), ((inputs args).map fun p => f (single p))
      = ((inputs args).map report).map fun r => f (success args [r]) := by
    intro α f
    rw [List.map_map]
    exact List.map_congr_left fun p hp => congrArg f (hsingle p hp)
  have hne : (inputs args).map report ≠ [] := by simpa using h.inputs_ne
  rw [hmap Result.status, hmap Result.stdout, show joint = _ from hjoint]
  refine ⟨max?_status_success hne, rfl, stdout_success_of_not_json, fun hjson => ?_⟩
  refine ⟨fun p => [(report p).toJson], fun p hp => ?_, ?_⟩
  · rw [show single p = _ from hsingle p hp]
    exact stdout_success_of_json hjson
  · have helements : ((inputs args).flatMap fun p => [(report p).toJson])
        = ((inputs args).map report).map Report.toJson := by
      rw [List.map_map, List.map_eq_flatMap]
      rfl
    rw [helements]
    exact stdout_success_of_json hjson

/-! ## A unit that is there and one that is not -/

/-- One file, with the unit whose markers contradict each other. -/
def oneFile : Files := fun path =>
  if path = "a.json" then some (.text contradictory.toText) else none

/-- The words of parsers that say nothing of the texts they refuse. -/
def Reasons.silent : Reasons where
  unit _ := ""
  config _ := ""

theorem loadUnit_oneFile : loadUnit .silent oneFile "a.json" = .ok contradictory := by
  have hload := CompilationUnit.load_toText (u := contradictory) (by rfl) Reasons.silent.unit
  rw [show contradictory.validate = .ok contradictory from rfl] at hload
  simp [loadUnit, readFile, oneFile, hload]
  rfl

/-- The unit, and another at the given path. -/
def withOther (p : String) : List Arg :=
  [.input "a.json", .denyWarnings, .input p]

theorem runnable_withOther {p : String} (hp : isOption p = false) :
    Runnable .silent oneFile {} (withOther p) where
  inputs_ne := nofun
  paths := by
    intro q hq
    have hq : q = "a.json" ∨ p = q := by simpa [withOther, inputs, Arg.input?] using hq
    rcases hq with rfl | rfl
    · decide
    · exact hp
  configs_le := Nat.zero_le _
  loads := rfl

/-- One unit, under the same option. -/
def only (p : String) : List Arg :=
  [.denyWarnings, .input p]

theorem only_withOther (p q : String) (_ : q ∈ inputs (withOther p)) :
    inputs (only q) = [q] ∧ (options (only q)).Perm (options (withOther p)) :=
  ⟨rfl, List.Perm.refl _⟩

theorem fails_contradictory : ∃ d ∈ (check {} contradictory).diagnostics,
    (failingSeverity true).rank ≤ d.severity.rank := by
  refine ⟨.annotationConflict (.spot 1) "NoInherit" "Inherit", ?_, by decide⟩
  apply (check_diagnostics_perm {} contradictory).mem_iff.2
  decide

theorem status_only_present : (run .silent oneFile false (line (only "a.json"))).status = 1 := by
  rw [run_alone_loaded (runnable_withOther (p := "a.json") (by decide)) (only_withOther "a.json")
    List.mem_cons_self loadUnit_oneFile]
  exact reportStatus_eq_one_iff.2 ⟨_, List.mem_singleton_self _, fails_contradictory⟩

theorem status_only_missing : (run .silent oneFile false (line (only "b.json"))).status = 2 := by
  have hload : loadUnit .silent oneFile "b.json" = .error (.unreadable "b.json" missingReason) := by
    simp [loadUnit, readFile, oneFile]
  rw [run_alone_failed (runnable_withOther (p := "b.json") (by decide)) (only_withOther "b.json")
    (List.mem_cons_of_mem _ List.mem_cons_self) hload]
  rfl

/-- Checked twice, the unit is printed twice; where the other is missing, nothing is printed. -/
theorem runs_compose_oneFile :
    (run .silent oneFile false (line (withOther "a.json"))).status = 1 ∧
    (run .silent oneFile false (line (withOther "a.json"))).stdout
      = (run .silent oneFile false (line (only "a.json"))).stdout
        ++ (run .silent oneFile false (line (only "a.json"))).stdout ∧
    run .silent oneFile false (line (withOther "b.json"))
      = { status := 2, stdout := "",
          stderr := (run .silent oneFile false (line (only "b.json"))).stderr } := by
  obtain ⟨htwice, -, hone⟩ := runs_compose (runnable_withOther (p := "a.json") (by decide))
    (only_withOther "a.json")
  obtain ⟨-, hmissing, -⟩ := runs_compose (runnable_withOther (p := "b.json") (by decide))
    (only_withOther "b.json")
  have hpresent := status_only_present
  have hinputs : inputs (withOther "a.json") = ["a.json", "a.json"] := rfl
  rw [hinputs] at htwice hone
  refine ⟨hone.2 ⟨by simp [loadUnit_oneFile], "a.json", List.mem_cons_self, contradictory,
    loadUnit_oneFile, fails_contradictory⟩, ?_, ?_⟩
  · obtain ⟨-, -, hstdout, -⟩ := htwice (by simp [hpresent])
    simpa using hstdout (by decide)
  · exact hmissing ["a.json"] "b.json" [] rfl (by simp [hpresent]) status_only_missing

end CommandLine

end Closedness
