import Closedness.Config.Basic
import Closedness.Flow.Checker
import Closedness.Program.Validation
import Closedness.Report

/-!
# Checking a unit

The analysis of a unit tabulates its declarations and then walks its methods one after the other,
with one checker for all of them. `runLog` is everything that logs under a configuration, and
`checkLog` what it logs when all kinds of findings are asked for. The report takes the findings from
the log, in source order (`check`); the trace takes the notes, in the order of the analysis
(`traceNotes`).
-/

namespace Closedness

/-- Everything the analysis of a unit logs: the declarations first, then each method. -/
def runLog (config : Config) (u : CompilationUnit) : List Event :=
  Model.log config.names u
    ++ Checker.checkMethods config.names (Model.ofUnit config.names u)
      { options := config.options } u.allMethods

/-- What the analysis of a unit logs when all findings are asked for. -/
def checkLog (names : Names) (u : CompilationUnit) : List Event :=
  runLog { names } u

/-- The event is reported under the given options; only findings can be left out. -/
def Options.keeps (o : Options) : Event → Bool
  | .found d => o.admits d.kind
  | _ => true

/-- What a log has found, under the given options. -/
def Findings.ofRun (options : Options) (log : List Event) : Findings :=
  .ofLog (log.filter options.keeps)

/-- The findings about a unit. -/
def check (config : Config) (u : CompilationUnit) : Report :=
  let findings := Findings.ofLog (runLog config u)
  let (diagnostics, unreliable) := findings.finish
  { unit := u.name, diagnostics, unreliable }

/-- The findings about the unit that a JSON text describes; `reason` says why it describes none. -/
def checkText (reason : String → String) (config : Config) (text : String) :
    Except UnitError Report :=
  (CompilationUnit.load reason text).map (check config)

/-- The decisions taken in the analysis of a unit, in order. -/
def traceNotes (config : Config) (u : CompilationUnit) : List Note :=
  let report := check config u
  Event.notes (runLog config u)
    ++ [.done u.name report.diagnostics.length report.unreliable.length]

end Closedness
