import EsmBundle.Bounds
import EsmBundle.Build
import EsmBundle.Bundler
import EsmBundle.Clock
import EsmBundle.CommandLine.Arguments
import EsmBundle.CommandLine.Flag
import EsmBundle.CommandLine.Given
import EsmBundle.CommandLine.Options
import EsmBundle.CommandLine.Usage
import EsmBundle.CommandLine.Word
import EsmBundle.Decimal.Binary64
import EsmBundle.Decimal.Layout
import EsmBundle.Decimal.Shortest
import EsmBundle.FileTree.Basic
import EsmBundle.FileTree.Path
import EsmBundle.FileTree.Place
import EsmBundle.FileTree.System
import EsmBundle.Finish
import EsmBundle.Graph.Basic
import EsmBundle.Graph.Decode
import EsmBundle.Graph.Loader
import EsmBundle.ImportClause
import EsmBundle.Json.Parser
import EsmBundle.Json.Printer
import EsmBundle.Json.Value
import EsmBundle.Main
import EsmBundle.OptionValue
import EsmBundle.Options
import EsmBundle.OrderedMap
import EsmBundle.OsError
import EsmBundle.Process
import EsmBundle.Program
import EsmBundle.Proofs.BuildOutput
import EsmBundle.Proofs.BuildStages
import EsmBundle.Proofs.Bundling
import EsmBundle.Proofs.CommandLine.AfterSeparator
import EsmBundle.Proofs.CommandLine.AnyOrder
import EsmBundle.Proofs.CommandLine.Items
import EsmBundle.Proofs.CommandLine.LikeSettings
import EsmBundle.Proofs.CommandLine.Rounds
import EsmBundle.Proofs.CommandLine.Values
import EsmBundle.Proofs.CommandLine.Word
import EsmBundle.Proofs.EarlyFailure
import EsmBundle.Proofs.Emission
import EsmBundle.Proofs.FailedWrite
import EsmBundle.Proofs.FileTree.Descent
import EsmBundle.Proofs.FileTree.Dots
import EsmBundle.Proofs.FileTree.Footprint
import EsmBundle.Proofs.FileTree.Listing
import EsmBundle.Proofs.FileTree.Making
import EsmBundle.Proofs.FileTree.Mirroring
import EsmBundle.Proofs.FileTree.Nesting
import EsmBundle.Proofs.FileTree.PathLength
import EsmBundle.Proofs.FileTree.PathText
import EsmBundle.Proofs.FileTree.Walk
import EsmBundle.Proofs.FileTree.Writing
import EsmBundle.Proofs.FilledDirectory
import EsmBundle.Proofs.FirstPlaces
import EsmBundle.Proofs.Graph.Edits
import EsmBundle.Proofs.Graph.ExternalNames
import EsmBundle.Proofs.Graph.Load
import EsmBundle.Proofs.Graph.Mapping
import EsmBundle.Proofs.Graph.Merge
import EsmBundle.Proofs.Graph.MergeLaws
import EsmBundle.Proofs.Graph.ReadParts
import EsmBundle.Proofs.Graph.StrayValues
import EsmBundle.Proofs.ImportCheck
import EsmBundle.Proofs.Interleaving
import EsmBundle.Proofs.Precedence
import EsmBundle.Proofs.PrivateDirectory
import EsmBundle.Proofs.ProcessProtocol
import EsmBundle.Proofs.ReadingBack
import EsmBundle.Proofs.Rewriting.Chains
import EsmBundle.Proofs.Rewriting.ClauseScan
import EsmBundle.Proofs.Rewriting.ClauseSearch
import EsmBundle.Proofs.Rewriting.EveryPass
import EsmBundle.Proofs.Rewriting.ImportSlot
import EsmBundle.Proofs.Rewriting.LeftmostReplacement
import EsmBundle.Proofs.Rewriting.OnePass
import EsmBundle.Proofs.Rewriting.SideEffectImport
import EsmBundle.Proofs.Rewriting.Simultaneous
import EsmBundle.Proofs.SettingsNames
import EsmBundle.Proofs.SettingsSearch
import EsmBundle.Proofs.SingleOutput
import EsmBundle.Proofs.Success
import EsmBundle.Proofs.Text.Blank
import EsmBundle.Proofs.Text.Scan
import EsmBundle.Proofs.Text.Split
import EsmBundle.Proofs.ToolRun
import EsmBundle.Proofs.TwoLoops
import EsmBundle.Proofs.WriteLoop
import EsmBundle.Replacement
import EsmBundle.Settings.Decode
import EsmBundle.Settings.Load
import EsmBundle.Specifier
import EsmBundle.SpecifierMap
import EsmBundle.Text.Blank
import EsmBundle.Text.DecimalDigit
import EsmBundle.Text.Newline
import EsmBundle.Text.Printable
import EsmBundle.Text.Quoted
import EsmBundle.Text.Scan
import EsmBundle.Text.Split
import EsmBundle.Text.Utf8
import EsmBundle.Transcript
