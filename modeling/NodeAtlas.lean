import NodeAtlas.CommandLine.Arguments
import NodeAtlas.CommandLine.Options
import NodeAtlas.Definition.Assembly
import NodeAtlas.Definition.Block
import NodeAtlas.Definition.Comment
import NodeAtlas.Definition.Document
import NodeAtlas.Definition.Finding
import NodeAtlas.Definition.Lexer
import NodeAtlas.Definition.Literal
import NodeAtlas.Definition.Printer
import NodeAtlas.Definition.Validation
import NodeAtlas.Diagnostic
import NodeAtlas.Digest
import NodeAtlas.Files.Discovery
import NodeAtlas.Files.Path
import NodeAtlas.Files.Tree
import NodeAtlas.Generation
import NodeAtlas.Glob.Match
import NodeAtlas.Glob.Pattern
import NodeAtlas.Glob.Rules
import NodeAtlas.Json.Language
import NodeAtlas.Json.Reader
import NodeAtlas.Json.Tree
import NodeAtlas.Json.Value
import NodeAtlas.Language.Names
import NodeAtlas.Language.Registry
import NodeAtlas.Main
import NodeAtlas.Markdown.Cell
import NodeAtlas.Markdown.Index
import NodeAtlas.Markdown.Page
import NodeAtlas.Markdown.Taxonomy
import NodeAtlas.NodeFlags
import NodeAtlas.NodeTable
import NodeAtlas.Position
import NodeAtlas.Program
import NodeAtlas.Proofs.Definition.Arguments
import NodeAtlas.Proofs.Definition.Filing
import NodeAtlas.Proofs.Definition.Group
import NodeAtlas.Proofs.Definition.Header
import NodeAtlas.Proofs.Definition.Marks
import NodeAtlas.Proofs.Definition.RoundTrip
import NodeAtlas.Proofs.Definition.Sources
import NodeAtlas.Proofs.Definition.Tokens
import NodeAtlas.Proofs.Json.Completeness
import NodeAtlas.Proofs.Json.Cover
import NodeAtlas.Proofs.Json.Grammar
import NodeAtlas.Proofs.Json.Layout
import NodeAtlas.Proofs.Json.Lossless
import NodeAtlas.Proofs.Json.Nesting
import NodeAtlas.Proofs.Json.Tokens
import NodeAtlas.Proofs.Json.Values
import NodeAtlas.Proofs.Text.Search
import NodeAtlas.Proofs.Text.Trim
import NodeAtlas.Report
import NodeAtlas.Semantic.Expr
import NodeAtlas.Semantic.Kind
import NodeAtlas.Semantic.Refinement
import NodeAtlas.Semantic.Type
import NodeAtlas.Settings
import NodeAtlas.Strategy.Name
import NodeAtlas.Strategy.Native
import NodeAtlas.Syntax.FlatRow
import NodeAtlas.Syntax.Listing
import NodeAtlas.Syntax.Naming
import NodeAtlas.Syntax.Tree
import NodeAtlas.Syntax.Walk
import NodeAtlas.Text.Alphabetic
import NodeAtlas.Text.Blank
import NodeAtlas.Text.Bytes
import NodeAtlas.Text.Case
import NodeAtlas.Text.CaseTable
import NodeAtlas.Text.CodeRange
import NodeAtlas.Text.Hidden
import NodeAtlas.Text.LineStarts
import NodeAtlas.Text.Lines
import NodeAtlas.Text.Number
import NodeAtlas.Text.Quote
import NodeAtlas.Text.Search
import NodeAtlas.Text.Word
import NodeAtlas.TypeTable
import NodeAtlas.Yaml.Node
import NodeAtlas.Yaml.Token
import NodeAtlas.Proofs.Json.Parts
import NodeAtlas.Proofs.Json.WellFormed
import NodeAtlas.Proofs.Definition.SourceOrder
import NodeAtlas.Proofs.Definition.Resolution
import NodeAtlas.Proofs.Definition.Repeats
import NodeAtlas.Text.Order
import NodeAtlas.Proofs.Files.Order
import NodeAtlas.Proofs.Files.Place
import NodeAtlas.Proofs.Files.Change
import NodeAtlas.Proofs.Program.Steps
import NodeAtlas.Proofs.Generation.Upkeep
import NodeAtlas.Proofs.Generation.Planning
import NodeAtlas.Proofs.Program.Conduct
import NodeAtlas.Proofs.Generation.Reproducible
import NodeAtlas.Proofs.Definition.Recovery
import NodeAtlas.Proofs.Syntax.Arena
import NodeAtlas.Proofs.Syntax.Traversal
import NodeAtlas.Proofs.Syntax.Flattening
import NodeAtlas.Proofs.Json.Counter
import NodeAtlas.Proofs.NodeTable.Insertion
import NodeAtlas.Proofs.Text.Offsets
import NodeAtlas.Proofs.Definition.Occurrences
import NodeAtlas.Proofs.Json.Origins
import NodeAtlas.Proofs.Json.Table
import NodeAtlas.Proofs.Json.PairNames
import NodeAtlas.Proofs.Text.LineStarts
import NodeAtlas.Proofs.Definition.Briefs
import NodeAtlas.Proofs.Semantic.Vocabulary
import NodeAtlas.Proofs.Semantic.Terms
import NodeAtlas.Proofs.Semantic.Parentheses
import NodeAtlas.Proofs.Semantic.Meaning
import NodeAtlas.Proofs.Semantic.Rendering
import NodeAtlas.Proofs.Definition.Skipped
import NodeAtlas.Proofs.Markdown.Arrangement
import NodeAtlas.Proofs.Markdown.TableLine
import NodeAtlas.Proofs.Text.Number
import NodeAtlas.Proofs.NodeFlags.Terms
import NodeAtlas.Proofs.Text.Lines
import NodeAtlas.Proofs.Definition.Comment
import NodeAtlas.Proofs.Definition.FileBlock
import NodeAtlas.Proofs.Markdown.CodeSpan
import NodeAtlas.Proofs.Definition.Excerpts
import NodeAtlas.Proofs.Definition.Messages
import NodeAtlas.Proofs.Report.Lines
import NodeAtlas.Proofs.Definition.Returns
import NodeAtlas.Proofs.Markdown.RowLines
import NodeAtlas.Proofs.Json.Classification
import NodeAtlas.Proofs.Definition.GroupTag
import NodeAtlas.Proofs.Definition.Titles
import NodeAtlas.Proofs.Files.Discovery
import NodeAtlas.Proofs.Syntax.Names
import NodeAtlas.Proofs.Syntax.Extraction
import NodeAtlas.Proofs.Syntax.Search
import NodeAtlas.Proofs.Syntax.Segments
import NodeAtlas.Proofs.Text.Encoding
import NodeAtlas.Proofs.Definition.Quoted
import NodeAtlas.Proofs.Definition.ScannedChunks
import NodeAtlas.Proofs.Definition.Lossless
import NodeAtlas.Proofs.Json.BracketScan
import NodeAtlas.Proofs.Json.DeepContainers
