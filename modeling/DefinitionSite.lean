import DefinitionSite.Catalog
import DefinitionSite.CommandLine.Command
import DefinitionSite.CommandLine.Form
import DefinitionSite.CommandLine.Given
import DefinitionSite.CommandLine.Run
import DefinitionSite.CommandLine.Usage
import DefinitionSite.Deadline
import DefinitionSite.Decimal.Numeral
import DefinitionSite.Decimal.Shortest
import DefinitionSite.Decimal.Written
import DefinitionSite.DirectoryScan
import DefinitionSite.Dump
import DefinitionSite.EngineChoice
import DefinitionSite.Environment
import DefinitionSite.Event
import DefinitionSite.FileTree.Basic
import DefinitionSite.FileTree.Edit
import DefinitionSite.FileTree.Resolve
import DefinitionSite.Glob
import DefinitionSite.Identifier
import DefinitionSite.InProcess
import DefinitionSite.Json.Basic
import DefinitionSite.Json.Reader
import DefinitionSite.Json.Writer
import DefinitionSite.Kind
import DefinitionSite.Label
import DefinitionSite.LineScan
import DefinitionSite.Location
import DefinitionSite.Locator
import DefinitionSite.Log
import DefinitionSite.Main
import DefinitionSite.Match
import DefinitionSite.Moment
import DefinitionSite.Path
import DefinitionSite.Position
import DefinitionSite.Regex.Basic
import DefinitionSite.Regex.Reader
import DefinitionSite.Ripgrep.Command
import DefinitionSite.Ripgrep.Record
import DefinitionSite.Ripgrep.Running
import DefinitionSite.Scripted
import DefinitionSite.Search
import DefinitionSite.Settings.Basic
import DefinitionSite.Settings.Document
import DefinitionSite.Settings.Fault
import DefinitionSite.Settings.Load
import DefinitionSite.SourceFiles
import DefinitionSite.Style
import DefinitionSite.Text.Base64
import DefinitionSite.Text.Basic
import DefinitionSite.Text.Blank
import DefinitionSite.Text.Digit
import DefinitionSite.Text.Lines
import DefinitionSite.Text.PrintableTable
import DefinitionSite.Text.Quoted
import DefinitionSite.Text.Raw
import DefinitionSite.Text.Similar
import DefinitionSite.Text.Utf8
import DefinitionSite.Text.Word
import DefinitionSite.Text.WordTable
import DefinitionSite.Toml.Basic
import DefinitionSite.Toml.Document
import DefinitionSite.Toml.Quoted
import DefinitionSite.Toml.Scalar
import DefinitionSite.Workspace
import DefinitionSite.Proofs.Catalog.Blocks
import DefinitionSite.Proofs.Catalog.Constructor
import DefinitionSite.Proofs.Catalog.DataBlock
import DefinitionSite.Proofs.Catalog.Declared
import DefinitionSite.Proofs.Catalog.Found
import DefinitionSite.Proofs.Catalog.Items
import DefinitionSite.Proofs.Catalog.OneLine
import DefinitionSite.Proofs.Catalog.Reading
import DefinitionSite.Proofs.Catalog.Sites
import DefinitionSite.Proofs.Catalog.Words
import DefinitionSite.Proofs.FileTree.Leads
import DefinitionSite.Proofs.FileTree.Resolution
import DefinitionSite.Proofs.FileTree.Sound
import DefinitionSite.Proofs.FileTree.Sources
import DefinitionSite.Proofs.LineScan.Agreement
import DefinitionSite.Proofs.LineScan.Constructors
import DefinitionSite.Proofs.LineScan.Indexes
import DefinitionSite.Proofs.LineScan.Plain
import DefinitionSite.Proofs.LineScan.Signatures
import DefinitionSite.Proofs.Location.Ordered
import DefinitionSite.Proofs.Locator.Absent
import DefinitionSite.Proofs.Locator.BufferLookup
import DefinitionSite.Proofs.Locator.Directory
import DefinitionSite.Proofs.Locator.Searches
import DefinitionSite.Proofs.Locator.WorkspaceLookup
import DefinitionSite.Proofs.Match.Best
import DefinitionSite.Proofs.Match.Grouping
import DefinitionSite.Proofs.Match.Spans
import DefinitionSite.Proofs.Path.Strings
import DefinitionSite.Proofs.Regex.Matches
import DefinitionSite.Proofs.Regex.Reading
import DefinitionSite.Proofs.Regex.Running
import DefinitionSite.Proofs.Regex.Spelling
import DefinitionSite.Proofs.Text.Lines
import DefinitionSite.Proofs.Text.Trim
import DefinitionSite.Proofs.Catalog.ByLines
import DefinitionSite.Proofs.Locator.LineEndings
import DefinitionSite.Proofs.Locator.Origins
import DefinitionSite.Proofs.Locator.Shape
import DefinitionSite.Proofs.Catalog.WholeNames
import DefinitionSite.Proofs.Locator.WholeNames
import DefinitionSite.Proofs.Json.Compact
import DefinitionSite.Proofs.Json.Fragments
import DefinitionSite.Proofs.Ripgrep.Output
import DefinitionSite.Proofs.Locator.Outcomes
import DefinitionSite.Proofs.Locator.PartialFailure
import DefinitionSite.Proofs.Locator.Later
import DefinitionSite.Proofs.Locator.Cancellation
import DefinitionSite.Proofs.Locator.BufferFirst
import DefinitionSite.Proofs.Locator.Schedules
import DefinitionSite.Proofs.Locator.Steps
import DefinitionSite.Proofs.Catalog.Templates
import DefinitionSite.Proofs.Settings.Setting
import DefinitionSite.Proofs.Settings.Changes
import DefinitionSite.Proofs.Settings.Layers
import DefinitionSite.Proofs.Ripgrep.Strays
import DefinitionSite.Proofs.Locator.Faults
import DefinitionSite.Proofs.Ripgrep.Attending
import DefinitionSite.Proofs.Ripgrep.Supervision
import DefinitionSite.Proofs.Ripgrep.TimeLimit
import DefinitionSite.Proofs.FileTree.Enumeration
import DefinitionSite.Proofs.Catalog.Occurrence
import DefinitionSite.Proofs.Catalog.ConstructorEvents
import DefinitionSite.Proofs.Location.Stopped
import DefinitionSite.Proofs.Match.Leftmost
import DefinitionSite.Proofs.Regex.InOrder
import DefinitionSite.Proofs.Text.Places
import DefinitionSite.Proofs.Match.WholeLines
import DefinitionSite.Proofs.Location.FilesApart
import DefinitionSite.Proofs.Locator.RootNeeded
import DefinitionSite.Proofs.CommandLine.RootAtHand
import DefinitionSite.Proofs.InProcess.Files
import DefinitionSite.Proofs.InProcess.AllOrNothing
import DefinitionSite.Proofs.Identifier.Words
import DefinitionSite.Proofs.Identifier.Cursor
import DefinitionSite.Proofs.Identifier.WordLines
import DefinitionSite.Proofs.Identifier.ValueNames
import DefinitionSite.Proofs.Settings.Partial
import DefinitionSite.Proofs.Settings.Reading
import DefinitionSite.Proofs.Settings.LastWriter
import DefinitionSite.Proofs.Settings.Layered
import DefinitionSite.Proofs.FileTree.Walking
import DefinitionSite.Proofs.FileTree.Asking
import DefinitionSite.Proofs.FileTree.Entries
import DefinitionSite.Proofs.FileTree.Growth
import DefinitionSite.Proofs.FileTree.Directories
import DefinitionSite.Proofs.Settings.Loaded
import DefinitionSite.Proofs.Workspace.Discovery
import DefinitionSite.Proofs.Workspace.OwnConfiguration
import DefinitionSite.Proofs.Workspace.Initialization
import DefinitionSite.Proofs.Dump.LookUps
import DefinitionSite.Proofs.Text.Joining
