import GoComplexity.Command.Arguments
import GoComplexity.Command.Options
import GoComplexity.Command.Run
import GoComplexity.Config.Basic
import GoComplexity.Config.Reading
import GoComplexity.Glob.Match
import GoComplexity.Glob.Pattern
import GoComplexity.Lint.Outcome
import GoComplexity.Lint.Run
import GoComplexity.Lint.Session
import GoComplexity.Lint.Violation
import GoComplexity.Main
import GoComplexity.Metric.Basic
import GoComplexity.Metric.Cyclomatic
import GoComplexity.Metric.FanOut
import GoComplexity.Metric.Finding
import GoComplexity.Metric.Guard
import GoComplexity.Metric.NestDepth
import GoComplexity.Metric.Override
import GoComplexity.Metric.Parameters
import GoComplexity.Metric.Settings
import GoComplexity.Metric.Thresholds
import GoComplexity.Proofs.Config.Layers
import GoComplexity.Proofs.Guard.Erasure
import GoComplexity.Proofs.Guard.Exemption
import GoComplexity.Proofs.Guard.FloatLiterals
import GoComplexity.Proofs.Lint.Limits
import GoComplexity.Proofs.Lint.Order
import GoComplexity.Proofs.Lint.Places
import GoComplexity.Proofs.Lint.Schedule
import GoComplexity.Proofs.Lint.Subject
import GoComplexity.Proofs.Metric.Comments
import GoComplexity.Proofs.Metric.Counts
import GoComplexity.Proofs.Metric.Directives
import GoComplexity.Proofs.Metric.Enclosing
import GoComplexity.Proofs.Metric.Flat
import GoComplexity.Proofs.Metric.Levels
import GoComplexity.Proofs.Metric.Parts
import GoComplexity.Proofs.Metric.Places
import GoComplexity.Proofs.Metric.Points
import GoComplexity.Proofs.Metric.Relabeling
import GoComplexity.Proofs.Metric.Unwrapping
import GoComplexity.Proofs.Report.Agreement
import GoComplexity.Proofs.Report.JsonText
import GoComplexity.Proofs.Report.Summary
import GoComplexity.Proofs.Resolve.Growth
import GoComplexity.Proofs.Resolve.Identity
import GoComplexity.Proofs.Resolve.Methods
import GoComplexity.Proofs.Resolve.Scope
import GoComplexity.Proofs.Resolve.TypeText
import GoComplexity.Proofs.Source.Alike
import GoComplexity.Proofs.Source.AlikeBodies
import GoComplexity.Proofs.Source.BoundNames
import GoComplexity.Proofs.Source.Conformance
import GoComplexity.Proofs.Source.DocComments
import GoComplexity.Proofs.Source.Extent
import GoComplexity.Proofs.Source.Files
import GoComplexity.Proofs.Source.Insertion
import GoComplexity.Proofs.Source.Layout
import GoComplexity.Proofs.Source.Lexemes
import GoComplexity.Proofs.Source.Nesting
import GoComplexity.Proofs.Source.Outline
import GoComplexity.Proofs.Source.ParamGroups
import GoComplexity.Proofs.Source.Places
import GoComplexity.Proofs.Source.Reading
import GoComplexity.Proofs.Source.Scanning
import GoComplexity.Proofs.Source.Shape
import GoComplexity.Proofs.Source.Signatures
import GoComplexity.Proofs.Source.ValidViews
import GoComplexity.Proofs.Source.Views
import GoComplexity.Proofs.Syntax.Nodes
import GoComplexity.Proofs.Syntax.Occurrences
import GoComplexity.Proofs.Syntax.PackageNames
import GoComplexity.Proofs.Syntax.PartKinds
import GoComplexity.Proofs.Syntax.Relabeling
import GoComplexity.Proofs.Syntax.Traversal
import GoComplexity.Proofs.Syntax.Unwrapping
import GoComplexity.Proofs.Text.Decimal
import GoComplexity.Proofs.Text.Search
import GoComplexity.Proofs.Workspace.Modules
import GoComplexity.Proofs.Workspace.Once
import GoComplexity.Proofs.Workspace.Order
import GoComplexity.Proofs.Workspace.Partition
import GoComplexity.Proofs.Workspace.Places
import GoComplexity.Proofs.Workspace.Recursive
import GoComplexity.Proofs.Workspace.Spelling
import GoComplexity.Report.Json
import GoComplexity.Report.Plain
import GoComplexity.Report.Pretty
import GoComplexity.Resolve.Callee
import GoComplexity.Resolve.Scope
import GoComplexity.Source.Bindings
import GoComplexity.Source.File
import GoComplexity.Source.Grammar
import GoComplexity.Source.Lexer
import GoComplexity.Source.Params
import GoComplexity.Source.Rule
import GoComplexity.Source.Statements
import GoComplexity.Source.Text
import GoComplexity.Source.Token
import GoComplexity.Source.Tree
import GoComplexity.Syntax.Basic
import GoComplexity.Syntax.Binding
import GoComplexity.Syntax.File
import GoComplexity.Syntax.Import
import GoComplexity.Syntax.Position
import GoComplexity.Syntax.Walk
import GoComplexity.Text.Blank
import GoComplexity.Text.Decimal
import GoComplexity.Text.Identifier
import GoComplexity.Text.Integer
import GoComplexity.Text.Letter
import GoComplexity.Text.Quoted
import GoComplexity.Text.Ranges
import GoComplexity.Text.Split
import GoComplexity.Text.Utf8
import GoComplexity.Text.Visible
import GoComplexity.Workspace.Basic
import GoComplexity.Workspace.Config
import GoComplexity.Workspace.FileTree
import GoComplexity.Workspace.Load
import GoComplexity.Workspace.Module
import GoComplexity.Workspace.Path
import GoComplexity.Workspace.Selection
import GoComplexity.Yaml.Cursor
import GoComplexity.Yaml.Document
import GoComplexity.Yaml.Scalar
import GoComplexity.Yaml.Tag
import GoComplexity.Yaml.Token
