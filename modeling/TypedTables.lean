import TypedTables.Column
import TypedTables.Column.ColumnType
import TypedTables.CommandLine.Arguments
import TypedTables.CommandLine.Request
import TypedTables.CommandLine.Run
import TypedTables.Config.Basic
import TypedTables.Config.File
import TypedTables.Config.Reading
import TypedTables.Data
import TypedTables.Data.Json
import TypedTables.Data.Written
import TypedTables.Decimal.Shortest
import TypedTables.Diagnostics
import TypedTables.Entity
import TypedTables.FieldOrder
import TypedTables.File.Path
import TypedTables.File.System
import TypedTables.File.Tree
import TypedTables.Generate
import TypedTables.Ignore.Glob
import TypedTables.Ignore.Rules
import TypedTables.Keyed
import TypedTables.Live.Form
import TypedTables.Live.Namespaces
import TypedTables.Live.Session
import TypedTables.Live.Value
import TypedTables.Log
import TypedTables.Log.Format
import TypedTables.Main
import TypedTables.Mixed
import TypedTables.Mixed.Moment
import TypedTables.Model
import TypedTables.Output
import TypedTables.Package
import TypedTables.Proofs.AcceptedConfig
import TypedTables.Proofs.AddedSources
import TypedTables.Proofs.Brackets
import TypedTables.Proofs.Calls
import TypedTables.Proofs.ClassOrder
import TypedTables.Proofs.ClassPath
import TypedTables.Proofs.Classification
import TypedTables.Proofs.Column
import TypedTables.Proofs.ColumnNames
import TypedTables.Proofs.ColumnType
import TypedTables.Proofs.Declarations
import TypedTables.Proofs.Decoration
import TypedTables.Proofs.DepthFirst
import TypedTables.Proofs.Diagnostics
import TypedTables.Proofs.DottedName
import TypedTables.Proofs.Evolution
import TypedTables.Proofs.Extraction
import TypedTables.Proofs.FieldNames
import TypedTables.Proofs.FieldOrder
import TypedTables.Proofs.FileSystem
import TypedTables.Proofs.FileTree
import TypedTables.Proofs.Growth
import TypedTables.Proofs.InertModules
import TypedTables.Proofs.IsolatedTypes
import TypedTables.Proofs.Keyed
import TypedTables.Proofs.Links
import TypedTables.Proofs.LiveClass
import TypedTables.Proofs.MemberClashes
import TypedTables.Proofs.Members
import TypedTables.Proofs.Mentions
import TypedTables.Proofs.MixedValues
import TypedTables.Proofs.ModuleMembers
import TypedTables.Proofs.ModuleScope
import TypedTables.Proofs.Names
import TypedTables.Proofs.Offsets
import TypedTables.Proofs.OneLineNames
import TypedTables.Proofs.Output
import TypedTables.Proofs.PhysicalLines
import TypedTables.Proofs.Prediction
import TypedTables.Proofs.QualifiedNames
import TypedTables.Proofs.Recovery
import TypedTables.Proofs.RegularColumn
import TypedTables.Proofs.RelativeImport
import TypedTables.Proofs.Resolution
import TypedTables.Proofs.Round.CapturedNames
import TypedTables.Proofs.Round.Completion
import TypedTables.Proofs.Round.Deposit
import TypedTables.Proofs.Round.DistinctMembers
import TypedTables.Proofs.Round.DryRun
import TypedTables.Proofs.Round.Execution
import TypedTables.Proofs.Round.Faults
import TypedTables.Proofs.Round.InertFiles
import TypedTables.Proofs.Round.LinkTargets
import TypedTables.Proofs.Round.Markers
import TypedTables.Proofs.Round.Models
import TypedTables.Proofs.Round.ModelsFirst
import TypedTables.Proofs.Round.NextScan
import TypedTables.Proofs.Round.NoticeLines
import TypedTables.Proofs.Round.OrderWarnings
import TypedTables.Proofs.Round.Ownership
import TypedTables.Proofs.Round.Parts
import TypedTables.Proofs.Round.Plan
import TypedTables.Proofs.Round.ProblemLines
import TypedTables.Proofs.Round.Problems
import TypedTables.Proofs.Round.RegularModels
import TypedTables.Proofs.Round.Reordering
import TypedTables.Proofs.Round.Run
import TypedTables.Proofs.Round.ScannedColumns
import TypedTables.Proofs.Round.Sharing
import TypedTables.Proofs.Round.StandardTemplates
import TypedTables.Proofs.RowMethods
import TypedTables.Proofs.Scan
import TypedTables.Proofs.Slots
import TypedTables.Proofs.Sorted
import TypedTables.Proofs.SortedFields
import TypedTables.Proofs.SourceCache
import TypedTables.Proofs.SourceListing
import TypedTables.Proofs.SourceName
import TypedTables.Proofs.SourceOrder
import TypedTables.Proofs.SourcePlace
import TypedTables.Proofs.Spelling
import TypedTables.Proofs.Subscripts
import TypedTables.Proofs.Template.Lines
import TypedTables.Proofs.Template.Overlooked
import TypedTables.Proofs.Template.Pieces
import TypedTables.Proofs.Template.Scoped
import TypedTables.Proofs.Template.Searched
import TypedTables.Proofs.Template.Told
import TypedTables.Proofs.TypeImports
import TypedTables.Proofs.TypeLayout
import TypedTables.Proofs.Unions
import TypedTables.Proofs.UnreadableSources
import TypedTables.Proofs.UnsupportedColumns
import TypedTables.Proofs.Utf8Reading
import TypedTables.Proofs.Vocabulary
import TypedTables.Proofs.Walk
import TypedTables.Proofs.Watch.History
import TypedTables.Proofs.Watch.OwnOutput
import TypedTables.Proofs.Watch.Queue
import TypedTables.Proofs.Watch.Reaction
import TypedTables.Round
import TypedTables.Schema
import TypedTables.Sorted
import TypedTables.Source.File
import TypedTables.Source.Line
import TypedTables.Source.Marked
import TypedTables.Source.ModuleContext
import TypedTables.Source.ModuleName
import TypedTables.Source.Scan
import TypedTables.Source.Statement
import TypedTables.Source.Token
import TypedTables.Template.Basic
import TypedTables.Template.Imports
import TypedTables.Template.Plain
import TypedTables.Template.Source
import TypedTables.Template.Standard
import TypedTables.Text.Blank
import TypedTables.Text.CodeRange
import TypedTables.Text.Decimal
import TypedTables.Text.Lines
import TypedTables.Text.Printable
import TypedTables.Text.Quoted
import TypedTables.Text.Split
import TypedTables.Text.Uppercase
import TypedTables.Text.Utf8
import TypedTables.Text.WordChar
import TypedTables.TypeRef.Reading
import TypedTables.Watch.Difference
import TypedTables.Watch.Queue
import TypedTables.Watch.Scope
import TypedTables.Watch.Timeline
import TypedTables.Watch.Watcher
import TypedTables.Yaml.Cursor
import TypedTables.Yaml.Reading
import TypedTables.Yaml.Scalar
