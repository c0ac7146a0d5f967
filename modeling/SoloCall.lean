import SoloCall.Main
import SoloCall.Argument
import SoloCall.Duration
import SoloCall.Driver.Plan
import SoloCall.Proofs.Record.Partition
import SoloCall.Proofs.Record.Reproduction
import SoloCall.Proofs.Driver.Commands
import SoloCall.Proofs.Dispatch.Alone
import SoloCall.Proofs.Dispatch.Isolation
import SoloCall.Proofs.Dispatch.Success
import SoloCall.Proofs.Record.Concatenation
import SoloCall.Proofs.Record.Body
import SoloCall.Proofs.Record.LineEnding
import SoloCall.Proofs.Outcome.RoundTrip
import SoloCall.Proofs.Record.Indentation
import SoloCall.Proofs.Record.Balance
import SoloCall.Proofs.Header.Name
import SoloCall.Proofs.Record.RoundTrip
import SoloCall.Proofs.Dispatch.Overwriting
import SoloCall.Proofs.Record.HeaderBrace
import SoloCall.Proofs.Record.Suite
import SoloCall.Proofs.Driver.Contents
import SoloCall.Proofs.Dispatch.Numbering
import SoloCall.Proofs.Json.Nesting
import SoloCall.Proofs.Outcome.Decoding
import SoloCall.Proofs.Json.Seam
import SoloCall.Proofs.Driver.MethodRoute
import SoloCall.Proofs.Outcome.Prints
import SoloCall.Proofs.Driver.Prototype
import SoloCall.Proofs.Driver.ScriptLiteral
import SoloCall.Proofs.Driver.ImportDirectory
import SoloCall.Proofs.Process.Sequence
import SoloCall.Proofs.Parameter.List
import SoloCall.Proofs.Parameter.Concatenation
import SoloCall.Proofs.Parameter.WellFormed
import SoloCall.Proofs.Config.Layers
import SoloCall.Proofs.Dispatch.Deadline
import SoloCall.Proofs.Argument.Numeral
import SoloCall.Proofs.Listing.Agreement
import SoloCall.Proofs.Language.Classification
