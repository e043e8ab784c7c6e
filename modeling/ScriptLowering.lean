import ScriptLowering.Text.Span
import ScriptLowering.Text.Blank
import ScriptLowering.Text.Bytes
import ScriptLowering.Text.RangeTable
import ScriptLowering.Text.Printable
import ScriptLowering.Text.Extending
import ScriptLowering.Text.Quoted
import ScriptLowering.Text.Lines
import ScriptLowering.Text.Terminal
import ScriptLowering.Text.Utf8
import ScriptLowering.Token.Basic
import ScriptLowering.Token.Scan
import ScriptLowering.Token.Lexer
import ScriptLowering.Diagnostic.Basic
import ScriptLowering.Diagnostic.Render
import ScriptLowering.Syntax.Kind
import ScriptLowering.Syntax.Tree
import ScriptLowering.Syntax.Parse
import ScriptLowering.Syntax.Given
import ScriptLowering.Number.Binary64
import ScriptLowering.Number.Read
import ScriptLowering.Number.Shortest
import ScriptLowering.Error
import ScriptLowering.Constant
import ScriptLowering.Hir.Basic
import ScriptLowering.Hir.Build
import ScriptLowering.Hir.Resolve
import ScriptLowering.Hir.Dump
import ScriptLowering.Hir.Analyze
import ScriptLowering.Hir.References
import ScriptLowering.Hir.Steps
import ScriptLowering.Mir.Basic
import ScriptLowering.Mir.Parents
import ScriptLowering.Mir.Convert
import ScriptLowering.Mir.Dump
import ScriptLowering.Mir.Walk
import ScriptLowering.Lowering.Rewrite
import ScriptLowering.Lowering.Reify
import ScriptLowering.Lowering.Initializer
import ScriptLowering.Lowering.FileClass
import ScriptLowering.Lowering.Pass
import ScriptLowering.Lowering.Steps
import ScriptLowering.Compile
import ScriptLowering.Cli.Similar
import ScriptLowering.Cli.Args
import ScriptLowering.Cli.Messages
import ScriptLowering.Cli.Files
import ScriptLowering.Cli.Run
import ScriptLowering.Main
import ScriptLowering.Proofs.Segmentation
import ScriptLowering.Proofs.LexicalScope
import ScriptLowering.Proofs.Image
import ScriptLowering.Proofs.Declarations
import ScriptLowering.Proofs.Conversion
import ScriptLowering.Proofs.StatementConversion
import ScriptLowering.Proofs.BuiltFile
import ScriptLowering.Proofs.Refinement
import ScriptLowering.Proofs.ArenaTree
import ScriptLowering.Proofs.ConvertShape
import ScriptLowering.Proofs.Initializers
import ScriptLowering.Proofs.FileClass
import ScriptLowering.Proofs.ReifyingWalk
import ScriptLowering.Proofs.ReifiedTree
import ScriptLowering.Proofs.Reification
import ScriptLowering.Proofs.FunctionClasses
import ScriptLowering.Proofs.PassInvariant
import ScriptLowering.Proofs.Idempotence
import ScriptLowering.Proofs.LoweredShape
import ScriptLowering.Proofs.ResolvingAgain
import ScriptLowering.Proofs.InitializerLayout
import ScriptLowering.Proofs.ExpressionGrammar
import ScriptLowering.Proofs.ExpressionReading
import ScriptLowering.Proofs.ExpressionParsing
import ScriptLowering.Proofs.BuildableTrees
import ScriptLowering.Proofs.ParsedTrees
import ScriptLowering.Proofs.Compiling
import ScriptLowering.Proofs.Positions
import ScriptLowering.Proofs.TokenStream
import ScriptLowering.Proofs.NodeLayout
import ScriptLowering.Proofs.ParsedLayout
import ScriptLowering.Proofs.CommaSegments
import ScriptLowering.Proofs.ArgumentSlots
import ScriptLowering.Proofs.CallSlots
import ScriptLowering.Proofs.ParentLinks
import ScriptLowering.Proofs.ObjectEntries
import ScriptLowering.Proofs.ParseReports
import ScriptLowering.Proofs.ReportSpans
import ScriptLowering.Proofs.RenderedDiagnostics
import ScriptLowering.Proofs.FailedExpressions
