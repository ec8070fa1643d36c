import CircuitBlocks.BigEndian
import CircuitBlocks.SortedMap
import CircuitBlocks.Text.Lines
import CircuitBlocks.Text.Blank
import CircuitBlocks.Text.Utf8
import CircuitBlocks.Hex
import CircuitBlocks.Sha256
import CircuitBlocks.Decimal.Printer
import CircuitBlocks.Decimal.Parser
import CircuitBlocks.Json.Parser
import CircuitBlocks.Json.Printer
import CircuitBlocks.Json.Record
import CircuitBlocks.MessagePack.Parser
import CircuitBlocks.MessagePack.Printer
import CircuitBlocks.MessagePack.Record
import CircuitBlocks.Path
import CircuitBlocks.FileTree.Access
import CircuitBlocks.FileTree.Basic
import CircuitBlocks.Machine
import CircuitBlocks.Shape.Document
import CircuitBlocks.Signals
import CircuitBlocks.SourceUnit.Basic
import CircuitBlocks.AuxiliaryFile
import CircuitBlocks.BlockId
import CircuitBlocks.Registry
import CircuitBlocks.Artifact.Blob
import CircuitBlocks.Artifact.Export
import CircuitBlocks.Diagnostic.Basic
import CircuitBlocks.Diagnostic.Messages
import CircuitBlocks.Toolchain.Basic
import CircuitBlocks.Compilation.Attribution
import CircuitBlocks.Compilation.Run
import CircuitBlocks.CompileState
import CircuitBlocks.Loading
import CircuitBlocks.Staleness
import CircuitBlocks.Block.Basic
import CircuitBlocks.Block.Compile
import CircuitBlocks.Block.Run
import CircuitBlocks.Project.Basic
import CircuitBlocks.Project.Document
import CircuitBlocks.Service.Basic
import CircuitBlocks.Service.Drain
import CircuitBlocks.CommandLine.Arguments
import CircuitBlocks.CommandLine.Basic
import CircuitBlocks.Main
import CircuitBlocks.Decimal.Binary64
import CircuitBlocks.Proofs.SortedMap
import CircuitBlocks.Proofs.Counting
import CircuitBlocks.Proofs.Staleness
import CircuitBlocks.Proofs.Registry
import CircuitBlocks.Proofs.Block.Compile
import CircuitBlocks.Proofs.Block.Edit
import CircuitBlocks.Proofs.Service.Slots
import CircuitBlocks.Proofs.Service.Accounting
import CircuitBlocks.Proofs.Service.Delivery
import CircuitBlocks.Proofs.Service.Exclusion
import CircuitBlocks.Proofs.Text.Lines
import CircuitBlocks.Proofs.SourceUnit.Buffer
import CircuitBlocks.Proofs.SourceUnit.Layout
import CircuitBlocks.Proofs.SourceUnit.LineMap
import CircuitBlocks.Proofs.ReadBack
import CircuitBlocks.Proofs.Hex
import CircuitBlocks.Proofs.Text.Utf8
import CircuitBlocks.Proofs.MessagePack.RoundTrip
import CircuitBlocks.Proofs.MessagePack.Sizes
import CircuitBlocks.Proofs.MessagePack.Record
import CircuitBlocks.Proofs.Artifact.Blob
import CircuitBlocks.Proofs.Artifact.RoundTrip
import CircuitBlocks.Proofs.Json.Spelling
import CircuitBlocks.Proofs.Json.Lexing
import CircuitBlocks.Proofs.Json.Building
import CircuitBlocks.Proofs.Json.Record
import CircuitBlocks.Proofs.Shape.Document
import CircuitBlocks.Proofs.Project.Document
import CircuitBlocks.Proofs.Compilation.Run
import CircuitBlocks.Proofs.Compilation.Attribution
import CircuitBlocks.Proofs.Loading
import CircuitBlocks.Proofs.Block.Start
import CircuitBlocks.Proofs.Block.Outcome
import CircuitBlocks.Proofs.Block.History
import CircuitBlocks.Proofs.Project.Trace
import CircuitBlocks.Proofs.Project.Exchange
import CircuitBlocks.Proofs.Project.Provenance
import CircuitBlocks.Proofs.Compilation.Completeness
import CircuitBlocks.Proofs.Project.Reachable
import CircuitBlocks.Proofs.Project.RoundTrip
import CircuitBlocks.Proofs.Compilation.Files
import CircuitBlocks.Proofs.Block.Directory
import CircuitBlocks.Proofs.Block.Running
import CircuitBlocks.Proofs.Block.Trials
import CircuitBlocks.Proofs.Project.Directory
import CircuitBlocks.Proofs.Project.Layout
import CircuitBlocks.Proofs.Project.Running
import CircuitBlocks.Proofs.Project.Trials
import CircuitBlocks.Proofs.Block.Uses
import CircuitBlocks.Proofs.Project.Linked
import CircuitBlocks.Proofs.Project.Acceptance
import CircuitBlocks.Proofs.Project.Damage
import CircuitBlocks.Proofs.Block.Replay
import CircuitBlocks.Proofs.Project.Attachments
import CircuitBlocks.Proofs.FileTree.Walks
import CircuitBlocks.Proofs.FileTree.Folders
import CircuitBlocks.Proofs.CommandLine.Export
import CircuitBlocks.Proofs.CommandLine.Compile
import CircuitBlocks.Proofs.Compilation.Pipeline
import CircuitBlocks.Proofs.Service.Order
import CircuitBlocks.Proofs.Compilation.Partition
import CircuitBlocks.Proofs.Block.Faults
import CircuitBlocks.Proofs.Block.Numbers
import CircuitBlocks.Proofs.Block.Unbuilt
import CircuitBlocks.Proofs.Artifact.Payloads
import CircuitBlocks.Proofs.Project.Payloads
import CircuitBlocks.Proofs.Shape.PortWidths
import CircuitBlocks.Proofs.Project.Hexadecimal
import CircuitBlocks.Proofs.Text.Blank
import CircuitBlocks.Proofs.Json.Grammar
import CircuitBlocks.Proofs.Json.Documents
import CircuitBlocks.Proofs.Diagnostic.Messages
import CircuitBlocks.Proofs.FileTree.Parents
import CircuitBlocks.Proofs.Compilation.Calls
import CircuitBlocks.Proofs.CommandLine.WorkingDirectory
import CircuitBlocks.Proofs.Signals.Splitting
