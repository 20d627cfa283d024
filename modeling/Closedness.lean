import Closedness.Json.Parser
import Closedness.Json.Printer
import Closedness.Json.Record
import Closedness.Span
import Closedness.Program.Basic
import Closedness.Program.Reading
import Closedness.Judgement
import Closedness.Marker
import Closedness.Findings
import Closedness.Program.Validation
import Closedness.Model
import Closedness.Env
import Closedness.Flow.Checker
import Closedness.Config.Reading
import Closedness.Check
import Closedness.Trace
import Closedness.Config.Toml
import Closedness.Main
import Closedness.Proofs.Conflicts
import Closedness.Proofs.Reordering
import Closedness.Proofs.Frames
import Closedness.Proofs.Lookups
import Closedness.Proofs.Independence
import Closedness.Proofs.Selection
import Closedness.Proofs.Normalization
import Closedness.Proofs.Options
import Closedness.Proofs.Mirroring
import Closedness.Proofs.Renaming
import Closedness.Proofs.Codecs
import Closedness.Proofs.BodyCodecs
import Closedness.Proofs.RoundTrip
import Closedness.Proofs.Labels
import Closedness.Proofs.Runs
import Closedness.Proofs.Merging
import Closedness.Proofs.Exposure
import Closedness.Proofs.Destructuring
import Closedness.Proofs.Origins
import Closedness.Proofs.Redundancy
import Closedness.Proofs.Precedence
import Closedness.Proofs.NullValues
import Closedness.Proofs.Unverified
import Closedness.Proofs.Omissions
import Closedness.Proofs.Classification
import Closedness.Proofs.Arguments
import Closedness.Proofs.PresentedUnits
import Closedness.Proofs.Reports
import Closedness.Proofs.Shadowing
import Closedness.Proofs.SourceOrder
