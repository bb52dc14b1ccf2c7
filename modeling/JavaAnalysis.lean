import JavaAnalysis.Ast.Basic
import JavaAnalysis.Ast.Listing
import JavaAnalysis.Ast.Outline
import JavaAnalysis.Ast.Range
import JavaAnalysis.Ast.Unit
import JavaAnalysis.Binding.Basic
import JavaAnalysis.Binding.Table
import JavaAnalysis.Binding.Universe
import JavaAnalysis.Command
import JavaAnalysis.Command.Arguments
import JavaAnalysis.Command.Report
import JavaAnalysis.Config
import JavaAnalysis.Diagnostic
import JavaAnalysis.DimensionFix
import JavaAnalysis.FileError
import JavaAnalysis.Files
import JavaAnalysis.Files.InMemory
import JavaAnalysis.FrontEnd
import JavaAnalysis.FrontEnd.Name
import JavaAnalysis.FrontEnd.Scripted
import JavaAnalysis.Kind
import JavaAnalysis.Kind.Node
import JavaAnalysis.Kind.Token
import JavaAnalysis.Layout.Basic
import JavaAnalysis.Layout.OfAst
import JavaAnalysis.Layout.Shape
import JavaAnalysis.Layout.Tree
import JavaAnalysis.Level
import JavaAnalysis.Lexeme
import JavaAnalysis.Lexeme.Scan
import JavaAnalysis.Main
import JavaAnalysis.ParsedUnit
import JavaAnalysis.Parser.Basic
import JavaAnalysis.Parser.Buffer
import JavaAnalysis.Parser.Declarations
import JavaAnalysis.Parser.Expressions
import JavaAnalysis.Parser.Grammar
import JavaAnalysis.Parser.Modifiers
import JavaAnalysis.Parser.Statements
import JavaAnalysis.Parser.Unit
import JavaAnalysis.Policy
import JavaAnalysis.Problem
import JavaAnalysis.Proofs.Buffer.Place
import JavaAnalysis.Proofs.Buffer.Undo
import JavaAnalysis.Proofs.Ensures
import JavaAnalysis.Proofs.Layout.Checked
import JavaAnalysis.Proofs.Layout.Drafted
import JavaAnalysis.Proofs.Layout.Failures
import JavaAnalysis.Proofs.Layout.FencedAst
import JavaAnalysis.Proofs.Layout.Fences
import JavaAnalysis.Proofs.Layout.Fits
import JavaAnalysis.Proofs.Layout.Jumps
import JavaAnalysis.Proofs.Layout.Lay
import JavaAnalysis.Proofs.Layout.Made
import JavaAnalysis.Proofs.Layout.Nodes
import JavaAnalysis.Proofs.Layout.Recorded
import JavaAnalysis.Proofs.Layout.Shapes
import JavaAnalysis.Proofs.Layout.Sites
import JavaAnalysis.Proofs.Layout.Unit
import JavaAnalysis.Proofs.Lexeme.Boundaries
import JavaAnalysis.Proofs.Lexeme.Kinds
import JavaAnalysis.Proofs.Lexeme.Partition
import JavaAnalysis.Proofs.Lexeme.Rescan
import JavaAnalysis.Proofs.Operators.Grouping
import JavaAnalysis.Proofs.Operators.Parsed
import JavaAnalysis.Proofs.Parser.Angles
import JavaAnalysis.Proofs.Parser.Declarations
import JavaAnalysis.Proofs.Parser.Expressions
import JavaAnalysis.Proofs.Parser.Lists
import JavaAnalysis.Proofs.Parser.Modifiers
import JavaAnalysis.Proofs.Parser.Place
import JavaAnalysis.Proofs.Parser.Primitives
import JavaAnalysis.Proofs.Parser.Statements
import JavaAnalysis.Proofs.Parser.Types
import JavaAnalysis.Proofs.Parser.Unit
import JavaAnalysis.Proofs.Progress.Calls
import JavaAnalysis.Proofs.Progress.Declarations
import JavaAnalysis.Proofs.Progress.Expressions
import JavaAnalysis.Proofs.Progress.Runs
import JavaAnalysis.Proofs.Progress.Statements
import JavaAnalysis.Proofs.Progress.Types
import JavaAnalysis.Proofs.Progress.Unit
import JavaAnalysis.Proofs.Resolve.Bodies
import JavaAnalysis.Proofs.Resolve.Discipline
import JavaAnalysis.Proofs.Resolve.Distinct
import JavaAnalysis.Proofs.Resolve.Entered
import JavaAnalysis.Proofs.Resolve.Expressions
import JavaAnalysis.Proofs.Resolve.Imports
import JavaAnalysis.Proofs.Resolve.Mentions
import JavaAnalysis.Proofs.Resolve.Names
import JavaAnalysis.Proofs.Resolve.Scopes
import JavaAnalysis.Proofs.Resolve.Unneeded
import JavaAnalysis.Proofs.Resolve.Used
import JavaAnalysis.Proofs.Resolve.Walk
import JavaAnalysis.Proofs.Row.Cutting
import JavaAnalysis.Proofs.Row.Lossless
import JavaAnalysis.Proofs.Row.Pieces
import JavaAnalysis.Proofs.Row.Search
import JavaAnalysis.Proofs.Run
import JavaAnalysis.Proofs.Run.History
import JavaAnalysis.Proofs.Semantics.Entering
import JavaAnalysis.Proofs.Semantics.Jumps
import JavaAnalysis.Proofs.SourceFile.Occurrences
import JavaAnalysis.Proofs.Sites.Ast
import JavaAnalysis.Proofs.Sites.Mentions
import JavaAnalysis.Proofs.Sites.OfAst
import JavaAnalysis.Proofs.Sites.Outlined
import JavaAnalysis.Proofs.Sites.Shape
import JavaAnalysis.Proofs.SourceFile
import JavaAnalysis.Proofs.SourceFile.EnteredNames
import JavaAnalysis.Proofs.SourceFile.Foreign
import JavaAnalysis.Proofs.SourceFile.Labels
import JavaAnalysis.Proofs.SourceFile.Splits
import JavaAnalysis.Proofs.SourceFile.Unused
import JavaAnalysis.Proofs.Tree.Checks
import JavaAnalysis.Proofs.Tree.Finish
import JavaAnalysis.Proofs.Tree.Formed
import JavaAnalysis.Proofs.Tree.Tables
import JavaAnalysis.Proofs.Tree.Preorder
import JavaAnalysis.Proofs.Warning
import JavaAnalysis.Resolve
import JavaAnalysis.Resolve.Basic
import JavaAnalysis.Resolve.Bodies
import JavaAnalysis.Resolve.Declare
import JavaAnalysis.Resolve.Expr
import JavaAnalysis.Resolve.Lookup
import JavaAnalysis.Run
import JavaAnalysis.Semantics.Occurrences
import JavaAnalysis.Semantics.Model
import JavaAnalysis.SourceFile
import JavaAnalysis.Text.CharClass
import JavaAnalysis.Text.Edit
import JavaAnalysis.Text.Identifier
import JavaAnalysis.Text.LineIndex
import JavaAnalysis.Text.Lowercase
import JavaAnalysis.Text.Range
import JavaAnalysis.Text.Quoted
import JavaAnalysis.Text.Snippet
import JavaAnalysis.Text.Width
import JavaAnalysis.Token.Row
import JavaAnalysis.Toml
import JavaAnalysis.Toml.Document
import JavaAnalysis.Tree.Basic
import JavaAnalysis.Tree.Draft
import JavaAnalysis.Tree.View
import JavaAnalysis.Tree.Walk
import JavaAnalysis.Unnecessary
import JavaAnalysis.Warning
import JavaAnalysis.Proofs.Spacing.Composition
import JavaAnalysis.Proofs.Spacing.Layout
import JavaAnalysis.Proofs.Spacing.Outline
import JavaAnalysis.Proofs.Spacing.ParsedUnit
import JavaAnalysis.Proofs.SourceFile.Spacing
import JavaAnalysis.Proofs.Regions.Outline
import JavaAnalysis.Proofs.SourceFile.Positions
import JavaAnalysis.Proofs.Text.Edit
import JavaAnalysis.Proofs.Row.Queries
import JavaAnalysis.Proofs.Tree.Walk
import JavaAnalysis.Proofs.SourceFile.Variables
import JavaAnalysis.Proofs.Regions.Declarations
import JavaAnalysis.Proofs.Semantics.Nesting
import JavaAnalysis.Proofs.Semantics.Supertypes
import JavaAnalysis.Proofs.SourceFile.Bindings
