/-
# Version discipline for the surfaces of contracts

The library compares what the contracts of two states of a source tree show to the outside, and
reports each change that was made without a new version.
-/
import AbiGate.Abi.Contract
import AbiGate.Abi.Identifier
import AbiGate.Abi.Row
import AbiGate.Abi.Snapshot
import AbiGate.Abi.VersionMarker
import AbiGate.Collection.Collaborators
import AbiGate.Collection.Collect
import AbiGate.Collection.InMemory
import AbiGate.Command.Arguments
import AbiGate.Command.Check
import AbiGate.Command.Configuration
import AbiGate.Comparison.Compare
import AbiGate.Comparison.Policy
import AbiGate.Comparison.Violation
import AbiGate.Document.Comparison
import AbiGate.Document.Files
import AbiGate.Document.Machine
import AbiGate.Document.Notation
import AbiGate.Document.Settings
import AbiGate.Document.Snapshot
import AbiGate.Document.Toml
import AbiGate.Extraction.Extract
import AbiGate.Extraction.Live
import AbiGate.Extraction.Source
import AbiGate.Files.Resolve
import AbiGate.Files.Tree
import AbiGate.Json.Basic
import AbiGate.Json.Printer
import AbiGate.Json.Reader
import AbiGate.Json.Token
import AbiGate.Path
import AbiGate.Proofs.Comparison.Findings
import AbiGate.Report.Json
import AbiGate.Report.Text
import AbiGate.Settings.Basic
import AbiGate.SortedMap
import AbiGate.Text.Blank
import AbiGate.Text.Double
import AbiGate.Text.Formless
import AbiGate.Text.Line
import AbiGate.Text.Numeral
import AbiGate.Text.Quoted
import AbiGate.Text.Styled
import AbiGate.Text.Utf8
import AbiGate.Toml.Bare
import AbiGate.Toml.Basic
import AbiGate.Toml.Reader
import AbiGate.Toml.Table
import AbiGate.Toml.Token
import AbiGate.Tool.Forge
import AbiGate.Tool.Git
import AbiGate.Tool.Machine
import AbiGate.Tool.Run
import AbiGate.Tool.Surroundings
import AbiGate.Main
import AbiGate.Proofs.Abi.Listing
import AbiGate.Proofs.Extraction.Tracked
import AbiGate.Proofs.Extraction.Success
import AbiGate.Proofs.Gate
import AbiGate.Proofs.Collection.Outcome
import AbiGate.Proofs.Collection.Restoration
import AbiGate.Proofs.Collection.Script
import AbiGate.Proofs.Collection.Trace
import AbiGate.Proofs.Collection.Undo
import AbiGate.Proofs.Collection.Failure
import AbiGate.Proofs.Collection.Independence
import AbiGate.Proofs.Path
import AbiGate.Proofs.Files.Following
import AbiGate.Proofs.Extraction.Relocation
import AbiGate.Proofs.Collection.Strategies
import AbiGate.Proofs.Files.Writing
import AbiGate.Proofs.Abi.Outline
import AbiGate.Proofs.Abi.Collisions
import AbiGate.Proofs.Comparison.Order
import AbiGate.Proofs.Comparison.Versions
import AbiGate.Proofs.Comparison.Releases
import AbiGate.Proofs.Comparison.Keyings
import AbiGate.Proofs.Comparison.Lists
import AbiGate.Proofs.Comparison.Modifications
import AbiGate.Proofs.Comparison.Stability
import AbiGate.Proofs.Comparison.Policies
import AbiGate.Proofs.Comparison.Locality
import AbiGate.Proofs.Comparison.Thresholds
import AbiGate.Proofs.Comparison.Additions
import AbiGate.Proofs.Command.Milestones
import AbiGate.Proofs.Command.Verdict
import AbiGate.Proofs.Text.Cuts
import AbiGate.Proofs.Text.OctetOrder
import AbiGate.Proofs.Text.Decoding
import AbiGate.Proofs.Extraction.WalkOrder
import AbiGate.Proofs.Abi.RowGrammar
import AbiGate.Proofs.Abi.VersionLine
import AbiGate.Proofs.Extraction.Progress
import AbiGate.Proofs.Extraction.Faults
import AbiGate.Proofs.Extraction.Contents
import AbiGate.Proofs.Extraction.Untracked
import AbiGate.Proofs.Files.Below
import AbiGate.Proofs.Extraction.InStep
import AbiGate.Proofs.Extraction.Live
import AbiGate.Proofs.Command.Extraction
import AbiGate.Proofs.Text.LineEnds
import AbiGate.Proofs.Abi.LineEnds
import AbiGate.Proofs.Json.Atoms
import AbiGate.Proofs.Json.ReadBack
import AbiGate.Proofs.Report.Wording
import AbiGate.Proofs.Report.Colour
import AbiGate.Proofs.Report.Lines
import AbiGate.Proofs.Report.ReadBack
import AbiGate.Proofs.Json.Compact
import AbiGate.Proofs.Abi.LastRow
import AbiGate.Proofs.Abi.Insertions
import AbiGate.Proofs.SortedMap
import AbiGate.Proofs.Document.Snapshots
import AbiGate.Proofs.Command.CommandLine
import AbiGate.Proofs.Document.Settings
import AbiGate.Proofs.Command.Layers
