import PermissionLint.Analyzer
import PermissionLint.Command.Arguments
import PermissionLint.Command.Check
import PermissionLint.Command.Help
import PermissionLint.Command.Init
import PermissionLint.Command.ListRules
import PermissionLint.Command.Outcome
import PermissionLint.Command.Reads
import PermissionLint.Command.Run
import PermissionLint.Config
import PermissionLint.Config.File
import PermissionLint.FileContext
import PermissionLint.FileTree
import PermissionLint.Glob.Basic
import PermissionLint.Glob.Exclude
import PermissionLint.Ignore.Pattern
import PermissionLint.Ignore.Rules
import PermissionLint.Ignore.Scope
import PermissionLint.Json.Basic
import PermissionLint.Json.Reader
import PermissionLint.Json.Writer
import PermissionLint.Log
import PermissionLint.Main
import PermissionLint.Model.Basic
import PermissionLint.Model.OfTree
import PermissionLint.Model.Visit
import PermissionLint.Number.Double
import PermissionLint.Path
import PermissionLint.Permission.Check
import PermissionLint.Permission.Host
import PermissionLint.Permission.Registry
import PermissionLint.Permission.Rule
import PermissionLint.Report
import PermissionLint.Report.Format
import PermissionLint.Report.Json
import PermissionLint.Report.Snippet
import PermissionLint.Rule
import PermissionLint.Severity
import PermissionLint.Source.Position
import PermissionLint.Suppression
import PermissionLint.Syntax.Grammar
import PermissionLint.Syntax.Kind
import PermissionLint.Syntax.Layout
import PermissionLint.Syntax.Lexeme
import PermissionLint.Syntax.Node
import PermissionLint.Syntax.Pattern
import PermissionLint.Syntax.Quote
import PermissionLint.Syntax.Reader
import PermissionLint.Syntax.Tree
import PermissionLint.Text.Blank
import PermissionLint.Text.Lines
import PermissionLint.Text.Utf8
import PermissionLint.Text.Width
import PermissionLint.Text.WidthRanges
import PermissionLint.Text.Word
import PermissionLint.Text.WordRanges
import PermissionLint.Toml.Document
import PermissionLint.Toml.Scalar
import PermissionLint.Toml.Value
import PermissionLint.Violation
import PermissionLint.Walk
import PermissionLint.Proofs.Model.Statements
import PermissionLint.Proofs.Permission.Findings
import PermissionLint.Proofs.Model.Lowering
import PermissionLint.Proofs.Model.Parentheses
import PermissionLint.Proofs.Permission.Trees
import PermissionLint.Proofs.Path.Order
import PermissionLint.Proofs.Path.Strip
import PermissionLint.Proofs.StableSort
import PermissionLint.Proofs.Analyzer.Run
import PermissionLint.Proofs.Path.Directory
import PermissionLint.Proofs.FileTree
import PermissionLint.Proofs.Suppression
import PermissionLint.Proofs.Command.Flake8
import PermissionLint.Proofs.Model.Visits
import PermissionLint.Proofs.Glob.Exclude
import PermissionLint.Proofs.Path.Join
import PermissionLint.Proofs.Walk
import PermissionLint.Proofs.Analyzer.Relocation
import PermissionLint.Proofs.Source.Offset
import PermissionLint.Proofs.Source.Position
import PermissionLint.Proofs.Syntax.Openings
import PermissionLint.Proofs.Permission.Spans
import PermissionLint.Proofs.Permission.Distinct
import PermissionLint.Proofs.Walk.Distinct
import PermissionLint.Proofs.Analyzer.Result
import PermissionLint.Proofs.Analyzer.Order
import PermissionLint.Proofs.Analyzer.Rules
import PermissionLint.Proofs.Walk.Deletion
import PermissionLint.Proofs.Analyzer.Strict
import PermissionLint.Proofs.Command.RuleList
import PermissionLint.Proofs.Json.Reading
import PermissionLint.Proofs.Permission.Readings
import PermissionLint.Proofs.Report.RoundTrip
import PermissionLint.Proofs.Command.Root
import PermissionLint.Proofs.Walk.Contents
import PermissionLint.Proofs.Command.Sources
import PermissionLint.Proofs.Text.Utf8
import PermissionLint.Proofs.Suppression.Directive
import PermissionLint.Proofs.Suppression.Chain
import PermissionLint.Proofs.Model.Nodes
import PermissionLint.Proofs.Model.Pruning
import PermissionLint.Proofs.Walk.Addition
import PermissionLint.Proofs.Analyzer.Bystander
import PermissionLint.Proofs.Command.Init
import PermissionLint.Proofs.Model.Overriding
import PermissionLint.Proofs.Suppression.Spelling
import PermissionLint.Proofs.Suppression.Backslash
import PermissionLint.Proofs.Model.Names
import PermissionLint.Proofs.Model.Bodies
import PermissionLint.Proofs.Text.Separator
import PermissionLint.Proofs.Glob.Folders
import PermissionLint.Proofs.Syntax.Asides
import PermissionLint.Proofs.Model.Asides
import PermissionLint.Proofs.Report.Flake8
import PermissionLint.Proofs.Report.Counts
import PermissionLint.Proofs.Command.Status
import PermissionLint.Proofs.Report.Colours
import PermissionLint.Proofs.Config.Decoding
