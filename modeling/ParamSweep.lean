import ParamSweep.Batch.Handle
import ParamSweep.Batch.Reconcile
import ParamSweep.Batch.Scheduler
import ParamSweep.Batch.Status
import ParamSweep.Batch.Submission
import ParamSweep.CommandLine.Arguments
import ParamSweep.CommandLine.Machine
import ParamSweep.CommandLine.Run
import ParamSweep.Config.Document
import ParamSweep.Config.OutputPath
import ParamSweep.Config.Resolver
import ParamSweep.Config.Source
import ParamSweep.Decimal.Magnitude
import ParamSweep.Decimal.Notation
import ParamSweep.Decimal.Read
import ParamSweep.Decimal.Rounded
import ParamSweep.Decimal.Shortest
import ParamSweep.Digest.Sha256
import ParamSweep.Error
import ParamSweep.Experiment.BatchFile
import ParamSweep.Experiment.Layout
import ParamSweep.Experiment.Listing
import ParamSweep.Experiment.Manifest
import ParamSweep.Expression.Evaluate
import ParamSweep.Expression.Token
import ParamSweep.Expression.Tree
import ParamSweep.Files.Change
import ParamSweep.Files.Moment
import ParamSweep.Files.Path
import ParamSweep.Files.Site
import ParamSweep.Files.Tree
import ParamSweep.Main
import ParamSweep.Merge
import ParamSweep.Naming.Template
import ParamSweep.Naming.Token
import ParamSweep.Output.Health
import ParamSweep.Output.Integrity
import ParamSweep.Output.Snapshot
import ParamSweep.Output.SuiteHealth
import ParamSweep.Output.SuiteRecord
import ParamSweep.Pattern.Basic
import ParamSweep.Pattern.Reader
import ParamSweep.Plan.Basic
import ParamSweep.Plan.Printer
import ParamSweep.Plan.Reader
import ParamSweep.Plan.Shape
import ParamSweep.Programs.Basic
import ParamSweep.Programs.Command
import ParamSweep.Programs.Shell
import ParamSweep.Programs.Tools
import ParamSweep.Proofs.Accounting
import ParamSweep.Proofs.AccountingTexts
import ParamSweep.Proofs.BatchLifetime
import ParamSweep.Proofs.ChainWalk
import ParamSweep.Proofs.ChangesBelow
import ParamSweep.Proofs.ClosestDouble
import ParamSweep.Proofs.Combinations
import ParamSweep.Proofs.CompactTexts
import ParamSweep.Proofs.Compilation
import ParamSweep.Proofs.Derivation
import ParamSweep.Proofs.DiskSource
import ParamSweep.Proofs.DocumentData
import ParamSweep.Proofs.DoubleOrder
import ParamSweep.Proofs.ExitStatus
import ParamSweep.Proofs.ExpressionGrammar
import ParamSweep.Proofs.ExpressionReading
import ParamSweep.Proofs.ExpressionWriting
import ParamSweep.Proofs.Extremes
import ParamSweep.Proofs.FieldBytes
import ParamSweep.Proofs.FreeParameters
import ParamSweep.Proofs.Generation
import ParamSweep.Proofs.GivenOptions
import ParamSweep.Proofs.GrowingTexts
import ParamSweep.Proofs.Inheritance
import ParamSweep.Proofs.Injection
import ParamSweep.Proofs.IntegerArithmetic
import ParamSweep.Proofs.JsonTokens
import ParamSweep.Proofs.KeptSettings
import ParamSweep.Proofs.LaidTrees
import ParamSweep.Proofs.LargerContexts
import ParamSweep.Proofs.Laying
import ParamSweep.Proofs.LoadedSnapshots
import ParamSweep.Proofs.LogDirectories
import ParamSweep.Proofs.LostManifest
import ParamSweep.Proofs.MakingDirectories
import ParamSweep.Proofs.ManifestLines
import ParamSweep.Proofs.MergeLaws
import ParamSweep.Proofs.NameCollision
import ParamSweep.Proofs.NumberTexts
import ParamSweep.Proofs.NumericNames
import ParamSweep.Proofs.Outcome
import ParamSweep.Proofs.OutputDiversity
import ParamSweep.Proofs.PatternRuns
import ParamSweep.Proofs.Place
import ParamSweep.Proofs.PlacedSuite
import ParamSweep.Proofs.Placeholders
import ParamSweep.Proofs.PollCount
import ParamSweep.Proofs.Polling
import ParamSweep.Proofs.ProperData
import ParamSweep.Proofs.QuotedCommands
import ParamSweep.Proofs.ReadDocuments
import ParamSweep.Proofs.ReadNumbers
import ParamSweep.Proofs.RebuildDecisions
import ParamSweep.Proofs.Reconciliation
import ParamSweep.Proofs.RecordedCalls
import ParamSweep.Proofs.Regeneration
import ParamSweep.Proofs.Relisting
import ParamSweep.Proofs.RemovedDirectories
import ParamSweep.Proofs.RenderedTexts
import ParamSweep.Proofs.RereadRecords
import ParamSweep.Proofs.RereadValues
import ParamSweep.Proofs.Resolution
import ParamSweep.Proofs.ResolverHistory
import ParamSweep.Proofs.RunDirectories
import ParamSweep.Proofs.RunFiles
import ParamSweep.Proofs.RunGrid
import ParamSweep.Proofs.RunIsolation
import ParamSweep.Proofs.RunVerdict
import ParamSweep.Proofs.SameConfiguration
import ParamSweep.Proofs.ScriptHead
import ParamSweep.Proofs.SharedDigest
import ParamSweep.Proofs.ShortestDigits
import ParamSweep.Proofs.StageProgress
import ParamSweep.Proofs.StageTable
import ParamSweep.Proofs.StandingSuite
import ParamSweep.Proofs.StoppedMerge
import ParamSweep.Proofs.Submitting
import ParamSweep.Proofs.Tables
import ParamSweep.Proofs.TargetSections
import ParamSweep.Proofs.TaskNumbers
import ParamSweep.Proofs.Templates
import ParamSweep.Proofs.TextLines
import ParamSweep.Proofs.TreeChange
import ParamSweep.Proofs.TreeOrder
import ParamSweep.Proofs.Trimming
import ParamSweep.Proofs.ValuePaths
import ParamSweep.Proofs.Writing
import ParamSweep.Proofs.WrittenManifest
import ParamSweep.Suite.Compile
import ParamSweep.Suite.Generate
import ParamSweep.Suite.Rebuild
import ParamSweep.Suite.Renderer
import ParamSweep.Suite.Script
import ParamSweep.Sweep.Combination
import ParamSweep.Sweep.Group
import ParamSweep.Tasks.LogIndex
import ParamSweep.Tasks.Progress
import ParamSweep.Tasks.Stage
import ParamSweep.Tasks.Wait
import ParamSweep.Text.Blank
import ParamSweep.Text.Case
import ParamSweep.Text.CaseTable
import ParamSweep.Text.Pieces
import ParamSweep.Text.Quoted
import ParamSweep.Text.Ranges
import ParamSweep.Text.Utf8
import ParamSweep.Text.WordChar
import ParamSweep.Value.Basic
import ParamSweep.Value.Json
import ParamSweep.Value.JsonReader
import ParamSweep.Value.JsonRecord
import ParamSweep.Value.JsonSkip
import ParamSweep.Value.Path
import ParamSweep.Yaml.Cursor
import ParamSweep.Yaml.Node
import ParamSweep.Yaml.Printer
import ParamSweep.Yaml.Reader
import ParamSweep.Yaml.Scalar
import ParamSweep.Yaml.Token
import ParamSweep.Yaml.Tree
