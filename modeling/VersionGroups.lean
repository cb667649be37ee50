import VersionGroups.Artifact.Dispatch
import VersionGroups.Artifact.Key
import VersionGroups.Artifact.Memo
import VersionGroups.CommandLine.Arguments
import VersionGroups.CommandLine.Commands
import VersionGroups.CommandLine.Execute
import VersionGroups.CommandLine.Host
import VersionGroups.CommandLine.Profile
import VersionGroups.Config.Basic
import VersionGroups.Config.Reader
import VersionGroups.Config.Toml
import VersionGroups.Config.Yaml
import VersionGroups.Corpus.Basic
import VersionGroups.Corpus.Reduction
import VersionGroups.Corpus.View
import VersionGroups.Decimal.Binary64
import VersionGroups.Decimal.Rounded
import VersionGroups.Decimal.Shortest
import VersionGroups.ErrorReport
import VersionGroups.Event
import VersionGroups.Fault
import VersionGroups.Files.Access
import VersionGroups.Files.Changes
import VersionGroups.Files.Path
import VersionGroups.Files.Replace
import VersionGroups.Files.Tree
import VersionGroups.Generator.Child
import VersionGroups.Generator.Command
import VersionGroups.Grouping.Basic
import VersionGroups.Grouping.Equivalence
import VersionGroups.Json.Basic
import VersionGroups.Json.Reader
import VersionGroups.Json.Skip
import VersionGroups.Json.Writer
import VersionGroups.Main
import VersionGroups.Manifest.Basic
import VersionGroups.Manifest.Computed
import VersionGroups.Manifest.Digest
import VersionGroups.Manifest.Render
import VersionGroups.Proofs.Config.Tracked
import VersionGroups.Proofs.Config.Validation
import VersionGroups.Proofs.Corpus.Alike
import VersionGroups.Proofs.Corpus.Faults
import VersionGroups.Proofs.Corpus.Reduction
import VersionGroups.Proofs.Grouping.Classes
import VersionGroups.Proofs.Grouping.Decision
import VersionGroups.Proofs.Grouping.Faults
import VersionGroups.Proofs.Grouping.Leaders
import VersionGroups.Proofs.Grouping.Mirror
import VersionGroups.Proofs.Grouping.Outcome
import VersionGroups.Proofs.Grouping.Partition
import VersionGroups.Proofs.Grouping.Placement
import VersionGroups.Proofs.Grouping.Reference
import VersionGroups.Proofs.Grouping.Search
import VersionGroups.Proofs.Grouping.Surface
import VersionGroups.Proofs.Json.Sameness
import VersionGroups.Proofs.Manifest.Classification
import VersionGroups.Proofs.Manifest.Computation
import VersionGroups.Proofs.Manifest.Coverage
import VersionGroups.Proofs.Manifest.Expansion
import VersionGroups.Proofs.Manifest.Failure
import VersionGroups.Proofs.Manifest.Layout
import VersionGroups.Proofs.Manifest.Listing
import VersionGroups.Proofs.Manifest.Sharing
import VersionGroups.Proofs.Results
import VersionGroups.Proofs.Table
import VersionGroups.Release.Description
import VersionGroups.Release.Loading
import VersionGroups.Run
import VersionGroups.Secret
import VersionGroups.Shell.Arithmetic
import VersionGroups.Shell.Builtins
import VersionGroups.Shell.Catalogue
import VersionGroups.Shell.Characters
import VersionGroups.Shell.Checksums
import VersionGroups.Shell.Conditions
import VersionGroups.Shell.Copying
import VersionGroups.Shell.Counting
import VersionGroups.Shell.EditScript
import VersionGroups.Shell.Editing
import VersionGroups.Shell.Encoding
import VersionGroups.Shell.Expansion
import VersionGroups.Shell.Expressions
import VersionGroups.Shell.Fields
import VersionGroups.Shell.Filing
import VersionGroups.Shell.Finding
import VersionGroups.Shell.Listing
import VersionGroups.Shell.Machine
import VersionGroups.Shell.Octets
import VersionGroups.Shell.Pattern
import VersionGroups.Shell.Printing
import VersionGroups.Shell.Program
import VersionGroups.Shell.Reader
import VersionGroups.Shell.Regex
import VersionGroups.Shell.Run
import VersionGroups.Shell.Search
import VersionGroups.Shell.Sorting
import VersionGroups.Shell.Starting
import VersionGroups.Shell.Syntax
import VersionGroups.Slot.Basic
import VersionGroups.Slot.Direction
import VersionGroups.Slot.Document
import VersionGroups.Slot.Path
import VersionGroups.Slot.Registry
import VersionGroups.Table
import VersionGroups.Text.Blank
import VersionGroups.Text.Hex
import VersionGroups.Text.LetterCase
import VersionGroups.Text.Quoted
import VersionGroups.Text.Utf8
import VersionGroups.Text.Words
import VersionGroups.Toml.Reader
import VersionGroups.Toml.Value
import VersionGroups.Toml.Writer
import VersionGroups.Untracked
import VersionGroups.WireId
import VersionGroups.Yaml.Node
import VersionGroups.Yaml.Scalar
import VersionGroups.Yaml.Text
import VersionGroups.Yaml.Token
import VersionGroups.Proofs.Grouping.Sample
import VersionGroups.Proofs.Manifest.Transparency
import VersionGroups.Proofs.Corpus.Extension
import VersionGroups.Proofs.Corpus.Selection
import VersionGroups.Proofs.Manifest.Restriction
import VersionGroups.Proofs.Manifest.Growth
import VersionGroups.Proofs.Artifact.Dispatch
import VersionGroups.Proofs.Run.History
import VersionGroups.Proofs.Toml.Key
import VersionGroups.Proofs.Toml.Section
import VersionGroups.Proofs.Toml.Document
import VersionGroups.Proofs.Manifest.File
import VersionGroups.Proofs.Manifest.Rows
import VersionGroups.Proofs.Manifest.Rendering
import VersionGroups.Proofs.Entrywise
import VersionGroups.Proofs.Json.Spelling
import VersionGroups.Proofs.Corpus.Spelling
import VersionGroups.Proofs.Grouping.Spelling
import VersionGroups.Proofs.Grouping.Naming
import VersionGroups.Proofs.Config.Order
import VersionGroups.Proofs.Manifest.Independence
import VersionGroups.Proofs.Corpus.Mapping
import VersionGroups.Proofs.Slot.Order
import VersionGroups.Proofs.Slot.Registry
import VersionGroups.Proofs.Corpus.Untracked
import VersionGroups.Proofs.Manifest.Accounting
import VersionGroups.Proofs.Manifest.Routing
import VersionGroups.Proofs.Files.Path
import VersionGroups.Proofs.Files.Location
import VersionGroups.Proofs.Files.Replacement
import VersionGroups.Proofs.Files.Room
import VersionGroups.Proofs.Files.Changes
import VersionGroups.Proofs.Files.Soundness
import VersionGroups.Proofs.Files.Access
import VersionGroups.Proofs.Release.Loading
import VersionGroups.Proofs.Release.Offers
import VersionGroups.Proofs.Release.Visits
import VersionGroups.Proofs.Release.Completeness
import VersionGroups.Proofs.Artifact.Layout
import VersionGroups.Proofs.Artifact.Directory
import VersionGroups.Proofs.Artifact.Room
import VersionGroups.Proofs.Artifact.Retention
import VersionGroups.Proofs.Run.Refusal
import VersionGroups.Proofs.Run.Agreement
import VersionGroups.Proofs.Run.Trace
import VersionGroups.Proofs.Run.Failures
import VersionGroups.Proofs.Manifest.Inconsistency
import VersionGroups.Proofs.Artifact.Places
import VersionGroups.Proofs.Artifact.Turns
import VersionGroups.Proofs.CommandLine.Manifest
import VersionGroups.Proofs.Corpus.Lookups
import VersionGroups.Proofs.Grouping.Unsettled
import VersionGroups.Proofs.Grouping.Cycle
import VersionGroups.Proofs.Manifest.Form
import VersionGroups.Proofs.Corpus.Repetition
import VersionGroups.Proofs.WireId
import VersionGroups.Proofs.Slot.Path
import VersionGroups.Proofs.Grouping.Watched
import VersionGroups.Proofs.Grouping.Calls
import VersionGroups.Proofs.Grouping.Depth
