import Delivery.LogFilter
import Delivery.Main
import Delivery.Observers
import Delivery.Rehearsal.Mock
import Delivery.Rehearsal.Probe
import Delivery.Proofs.LogFilter
import Delivery.Proofs.Text.ByteOrder
import Delivery.Proofs.Time.Calendar
import Delivery.Proofs.Time.Rendering
import Delivery.Proofs.Json.Grammar
import Delivery.Proofs.Json.Scanning
import Delivery.Proofs.Json.Derivation
import Delivery.Proofs.Json.Reading
import Delivery.Proofs.Json.Range
import Delivery.Proofs.Json.Lawful
import Delivery.Proofs.Json.Records
import Delivery.Proofs.Json.Canonical
import Delivery.Proofs.Json.Members
import Delivery.Proofs.Json.Schemas
import Delivery.Proofs.Json.Lines
import Delivery.Proofs.Wire
import Delivery.Proofs.Toml.Strings
import Delivery.Proofs.Toml.Documents
import Delivery.Proofs.Files.Growth
import Delivery.Proofs.Files.Paths
import Delivery.Proofs.Files.Extensions
import Delivery.Proofs.Files.WorkDirs
import Delivery.Proofs.Directories
import Delivery.Proofs.Settings.Saving
import Delivery.Proofs.Settings.Loading
import Delivery.Proofs.Inputs.Loading
import Delivery.Proofs.Inputs.Shapes
import Delivery.Proofs.Inputs.Agreement
import Delivery.Proofs.Inputs.StepsLanguage
import Delivery.Proofs.Registrations
import Delivery.Proofs.Privilege
import Delivery.Proofs.Cluster.Histories
import Delivery.Proofs.FirstCause
import Delivery.Proofs.Interruption
import Delivery.Proofs.Health.Aggregate
import Delivery.Proofs.Health.Composition
import Delivery.Proofs.Promotion.Builtins
import Delivery.Proofs.Promotion.Cancellation
import Delivery.Proofs.Promotion.Clock
import Delivery.Proofs.Promotion.Counter
import Delivery.Proofs.Promotion.Diagnosis
import Delivery.Proofs.Promotion.Keeping
import Delivery.Proofs.Promotion.Problems
import Delivery.Proofs.Promotion.Refusal
import Delivery.Proofs.Promotion.Remainder
import Delivery.Proofs.Promotion.Repetition
import Delivery.Proofs.Promotion.ResumeIndex
import Delivery.Proofs.Promotion.Splitting
import Delivery.Proofs.Promotion.Suspension
import Delivery.Proofs.Promotion.Threshold
import Delivery.Proofs.Promotion.Timestamps
import Delivery.Proofs.Promotion.Window
import Delivery.Proofs.CommandLine.Arguments
import Delivery.Proofs.CommandLine.Reports
import Delivery.Proofs.CommandLine.Resumption
import Delivery.Proofs.CommandLine.Exits
