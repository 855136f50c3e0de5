import ChangeImpact.Builder
import ChangeImpact.Change
import ChangeImpact.CommandLine.Arguments
import ChangeImpact.CommandLine.Options
import ChangeImpact.CommandLine.Run
import ChangeImpact.Disk.AtomicWrite
import ChangeImpact.Disk.Basic
import ChangeImpact.Disk.Conduct
import ChangeImpact.Disk.Inventory
import ChangeImpact.Disk.Listing
import ChangeImpact.Disk.Tree
import ChangeImpact.FileKind
import ChangeImpact.Graph.Basic
import ChangeImpact.Graph.Consistency
import ChangeImpact.Graph.Document
import ChangeImpact.Graph.Statistics
import ChangeImpact.Graph.Unchecked
import ChangeImpact.GraphFile
import ChangeImpact.Impact
import ChangeImpact.Json.Basic
import ChangeImpact.Json.Key
import ChangeImpact.Json.Printer
import ChangeImpact.Json.Reader
import ChangeImpact.Main
import ChangeImpact.Number.Binary64
import ChangeImpact.Number.Integer
import ChangeImpact.Number.Shortest
import ChangeImpact.Number.Timestamp
import ChangeImpact.Path.Basic
import ChangeImpact.Path.Key
import ChangeImpact.Path.Tidy
import ChangeImpact.PathSet
import ChangeImpact.Reader
import ChangeImpact.Repository
import ChangeImpact.Resolver
import ChangeImpact.Script.Dialect
import ChangeImpact.Script.Extraction
import ChangeImpact.Script.Grammar.Basic
import ChangeImpact.Script.Grammar.Class
import ChangeImpact.Script.Grammar.Declaration
import ChangeImpact.Script.Grammar.Expression
import ChangeImpact.Script.Grammar.Markup
import ChangeImpact.Script.Grammar.Module
import ChangeImpact.Script.Grammar.Name
import ChangeImpact.Script.Grammar.Statement
import ChangeImpact.Script.Grammar.Type
import ChangeImpact.Script.Lexeme
import ChangeImpact.Script.Node
import ChangeImpact.Script.Rule
import ChangeImpact.Script.TextScan
import ChangeImpact.Selection
import ChangeImpact.Settings.Basic
import ChangeImpact.Settings.EnvironmentFile
import ChangeImpact.Table
import ChangeImpact.Text.Blank
import ChangeImpact.Text.CharRange
import ChangeImpact.Text.Digit
import ChangeImpact.Text.Hex
import ChangeImpact.Text.Lines
import ChangeImpact.Text.Lowercase
import ChangeImpact.Text.Printable
import ChangeImpact.Text.Quoted
import ChangeImpact.Text.Utf8
import ChangeImpact.Text.Wording
import ChangeImpact.Text.Word
import ChangeImpact.Proofs.Collections.PathSet
import ChangeImpact.Proofs.Collections.Table
import ChangeImpact.Proofs.Path.Directory
import ChangeImpact.Proofs.Resolver.Directories
import ChangeImpact.Proofs.Reader
import ChangeImpact.Proofs.Steps
import ChangeImpact.Proofs.Graph.Balance
import ChangeImpact.Proofs.Graph.Consistency
import ChangeImpact.Proofs.Graph.Diagnostics
import ChangeImpact.Proofs.Graph.Equality
import ChangeImpact.Proofs.Graph.Operations
import ChangeImpact.Proofs.Graph.Rows
import ChangeImpact.Proofs.Graph.Removal
import ChangeImpact.Proofs.Resolver.Candidates
import ChangeImpact.Proofs.Resolver.Outcomes
import ChangeImpact.Proofs.Resolver.FirstMatch
import ChangeImpact.Proofs.Builder.Scanning
import ChangeImpact.Proofs.Builder.Record
import ChangeImpact.Proofs.Builder.Linking
import ChangeImpact.Proofs.Builder.Building
import ChangeImpact.Proofs.Builder.Texts
import ChangeImpact.Proofs.Builder.Changes
import ChangeImpact.Proofs.Builder.Refreshing
import ChangeImpact.Proofs.Builder.Watching
import ChangeImpact.Proofs.Impact.Search
import ChangeImpact.Proofs.Impact.Safety
import ChangeImpact.Proofs.Graph.History
import ChangeImpact.Proofs.Builder.Tasks
import ChangeImpact.Proofs.Builder.Runs
import ChangeImpact.Proofs.Reader.Workers
import ChangeImpact.Proofs.Builder.Schedules
import ChangeImpact.Proofs.Builder.Mentions
import ChangeImpact.Proofs.Impact.Exactness
import ChangeImpact.Proofs.Impact.Additivity
import ChangeImpact.Proofs.Graph.Replay
import ChangeImpact.Proofs.Graph.Copies
import ChangeImpact.Proofs.Graph.Documents
import ChangeImpact.Proofs.Graph.Readings
import ChangeImpact.Proofs.Graph.Renaming
import ChangeImpact.Proofs.Graph.Translation
import ChangeImpact.Proofs.Graph.Statistics
import ChangeImpact.Proofs.Impact.Deletion
import ChangeImpact.Proofs.Impact.Agreement
import ChangeImpact.Proofs.Impact.Presence
import ChangeImpact.Proofs.Json.Strings
import ChangeImpact.Proofs.Json.Numbers
import ChangeImpact.Proofs.Json.Refusals
import ChangeImpact.Proofs.Number.Rounding
import ChangeImpact.Proofs.Number.Shortest
import ChangeImpact.Proofs.Json.Floats
import ChangeImpact.Proofs.Json.Rereading
import ChangeImpact.Proofs.Json.Sorted
import ChangeImpact.Proofs.Json.Keys
import ChangeImpact.Proofs.Graph.Stored
import ChangeImpact.Proofs.Disk.Tree
import ChangeImpact.Proofs.Disk.Following
import ChangeImpact.Proofs.Disk.Listing
import ChangeImpact.Proofs.Disk.ListedFiles
import ChangeImpact.Proofs.Disk.AtomicWrite
import ChangeImpact.Proofs.Disk.Directories
import ChangeImpact.Proofs.Disk.Writing
import ChangeImpact.Proofs.Disk.Refusals
import ChangeImpact.Proofs.Text.Blank
import ChangeImpact.Proofs.Text.Lines
import ChangeImpact.Proofs.Text.Utf8
import ChangeImpact.Proofs.GraphFile
import ChangeImpact.Proofs.GraphFile.Outcomes
import ChangeImpact.Proofs.Builder.Reuse
import ChangeImpact.Proofs.Builder.Storing
import ChangeImpact.Proofs.Builder.Repeated
import ChangeImpact.Proofs.CommandLine.Loading
import ChangeImpact.Proofs.CommandLine.Refusals
import ChangeImpact.Proofs.CommandLine.ProjectFiles
import ChangeImpact.Proofs.CommandLine.CachedRuns
import ChangeImpact.Proofs.CommandLine.RepeatedRuns
import ChangeImpact.Proofs.Script.Patterns
import ChangeImpact.Proofs.Script.SilentText
import ChangeImpact.Proofs.Script.ImportLines
import ChangeImpact.Proofs.Script.Visits
import ChangeImpact.Proofs.Selection.Coverage
import ChangeImpact.Proofs.Selection.Renaming
import ChangeImpact.Proofs.Path.Below
import ChangeImpact.Proofs.Path.Tidy
import ChangeImpact.Proofs.Path.Keys
import ChangeImpact.Proofs.Path.Canonical
import ChangeImpact.Proofs.Path.Collapsing
import ChangeImpact.Proofs.Path.Settling
import ChangeImpact.Proofs.Resolver.Ascent
import ChangeImpact.Proofs.Resolver.Naming
import ChangeImpact.Proofs.Settings.Aliases
import ChangeImpact.Proofs.Resolver.Dependence
import ChangeImpact.Proofs.Path.Spellings
import ChangeImpact.Proofs.Path.Regular
import ChangeImpact.Proofs.FileKind
import ChangeImpact.Proofs.Impact.Companions
import ChangeImpact.Proofs.Repository
import ChangeImpact.Proofs.Repository.LastEntries
