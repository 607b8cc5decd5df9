import CallContext.CallGraph
import CallContext.CallGraph.Adjacency
import CallContext.CallGraph.Build
import CallContext.CallGraph.Chains
import CallContext.CallGraph.Dot
import CallContext.CallGraph.Query
import CallContext.CallGraph.Queue
import CallContext.CallGraph.Related
import CallContext.CallGraph.Statistics
import CallContext.CallGraph.Trace
import CallContext.Collection.Distinct
import CallContext.Collection.Table
import CallContext.CommandLine.Command
import CallContext.CommandLine.Completion
import CallContext.CommandLine.Grammar
import CallContext.CommandLine.Run
import CallContext.CommandLine.Usage
import CallContext.Context
import CallContext.Context.Assemble
import CallContext.Context.Render
import CallContext.Context.TokenCounter
import CallContext.Diff.Declaration
import CallContext.Diff.Scan
import CallContext.FileTree
import CallContext.FileTree.IgnoreRules
import CallContext.FileTree.Walk
import CallContext.Glob
import CallContext.Glob.Reader
import CallContext.Java.CallSite
import CallContext.Java.Lexer
import CallContext.Java.Parser
import CallContext.Java.Parser.Basic
import CallContext.Java.Parser.Declaration
import CallContext.Java.Parser.Expression
import CallContext.Java.Parser.Grammar
import CallContext.Java.Parser.Statement
import CallContext.Java.Parser.Type
import CallContext.Java.SourceFile
import CallContext.Java.Syntax
import CallContext.Java.Token
import CallContext.Java.TypeText
import CallContext.Json
import CallContext.Json.Printer
import CallContext.Json.Reader
import CallContext.Main
import CallContext.MethodId
import CallContext.Name
import CallContext.Path
import CallContext.Path.Expansion
import CallContext.Proofs.CallGraph.Adjacency
import CallContext.Proofs.CallGraph.Closed
import CallContext.Proofs.CallGraph.Log
import CallContext.Proofs.CallGraph.Quotient
import CallContext.Proofs.CallGraph.Related
import CallContext.Proofs.Collection.Distinct
import CallContext.Proofs.Collection.Table
import CallContext.Proofs.Context.Accumulate
import CallContext.Proofs.Context.Budget
import CallContext.Proofs.Context.Caps
import CallContext.Proofs.Context.Narrowing
import CallContext.Proofs.Context.RelatedFiles
import CallContext.Proofs.Diff.AddedLine
import CallContext.Proofs.Diff.Line
import CallContext.Proofs.Diff.Removed
import CallContext.Proofs.Index
import CallContext.Proofs.Resolution.Candidates
import CallContext.Proofs.Search.Levels
import CallContext.Proofs.Search.Walk
import CallContext.Proofs.Workspace
import CallContext.Request
import CallContext.Resolution.Call
import CallContext.Resolution.Hierarchy
import CallContext.Resolution.Overloads
import CallContext.Resolution.TypeName
import CallContext.Search
import CallContext.Settings
import CallContext.Settings.Load
import CallContext.SourceIndex
import CallContext.Text.Blank
import CallContext.Text.CodeRange
import CallContext.Text.Cut
import CallContext.Text.Decimal
import CallContext.Text.Grid
import CallContext.Text.Lines
import CallContext.Text.Numeral
import CallContext.Text.Outline
import CallContext.Text.Utf8
import CallContext.Text.Width
import CallContext.Text.Word
import CallContext.Toml
import CallContext.Toml.Document
import CallContext.Toml.Reader
import CallContext.Workspace
import CallContext.Proofs.CallGraph.Hops
import CallContext.Proofs.CallGraph.Traversal
import CallContext.Proofs.CallGraph.History
import CallContext.Proofs.Collection.Sorted
import CallContext.Proofs.Index.Order
import CallContext.Proofs.Name
import CallContext.Proofs.Resolution.TypeName
import CallContext.Proofs.Search.Limit
import CallContext.Proofs.Resolution.Receiver
import CallContext.Proofs.Resolution.Unrelated
import CallContext.Proofs.FileTree.Extension
import CallContext.Proofs.CallGraph.Dot
import CallContext.Proofs.Java.RoundTrip
import CallContext.Proofs.CallGraph.Chains
import CallContext.Proofs.CallGraph.HopTree
import CallContext.Proofs.CallGraph.Statistics
import CallContext.Proofs.CallGraph.Summary
import CallContext.Proofs.Resolution.Nearest
import CallContext.Proofs.Resolution.Overloads
import CallContext.Proofs.Resolution.Shadowing
import CallContext.Proofs.Resolution.Imports
import CallContext.Proofs.CallGraph.Query
import CallContext.Proofs.Diff.DeclarationPattern
import CallContext.Proofs.Diff.Header
import CallContext.Proofs.CallGraph.Styles
import CallContext.Proofs.Java.CallOrder
import CallContext.Proofs.Java.Nesting
import CallContext.Proofs.Java.Signature
import CallContext.Proofs.FileTree.Walk
import CallContext.Proofs.Diff.LineNumbers
import CallContext.Proofs.Index.Lookup
import CallContext.Proofs.Java.Erasure
import CallContext.Proofs.Resolution.Enclosing
