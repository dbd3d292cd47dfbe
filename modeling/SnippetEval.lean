import SnippetEval.Bridge
import SnippetEval.Cache
import SnippetEval.CommandLine
import SnippetEval.Compilation
import SnippetEval.CompiledUnit
import SnippetEval.Decimal.Binary64
import SnippetEval.Decimal.Reading
import SnippetEval.Decimal.Shortest
import SnippetEval.Description.Host
import SnippetEval.Description.Types
import SnippetEval.Diagnostic
import SnippetEval.EvalError
import SnippetEval.Evaluator
import SnippetEval.Fingerprint
import SnippetEval.Invocation
import SnippetEval.Json.Number
import SnippetEval.Json.Problem
import SnippetEval.Json.Reading
import SnippetEval.Json.Token
import SnippetEval.Json.Tree
import SnippetEval.Main
import SnippetEval.Proofs.Bridge
import SnippetEval.Proofs.Cache.History
import SnippetEval.Proofs.Cache.Lookup
import SnippetEval.Proofs.CallShape
import SnippetEval.Proofs.Compilation
import SnippetEval.Proofs.Description.Building
import SnippetEval.Proofs.Description.FieldValues
import SnippetEval.Proofs.Description.Graph
import SnippetEval.Proofs.Description.Installing
import SnippetEval.Proofs.Evaluator.CompileCount
import SnippetEval.Proofs.Evaluator.ContextFailures
import SnippetEval.Proofs.Evaluator.ExactArithmetic
import SnippetEval.Proofs.Evaluator.Footprint
import SnippetEval.Proofs.Evaluator.FreshUnit
import SnippetEval.Proofs.Evaluator.HiddenTypes
import SnippetEval.Proofs.Evaluator.Layout
import SnippetEval.Proofs.Evaluator.NamePlaces
import SnippetEval.Proofs.Evaluator.Operations
import SnippetEval.Proofs.Evaluator.RejectedUnits
import SnippetEval.Proofs.Evaluator.SkippedContexts
import SnippetEval.Proofs.Evaluator.Transparency
import SnippetEval.Proofs.Evaluator.UnreadSymbols
import SnippetEval.Proofs.Except
import SnippetEval.Proofs.Fingerprint.Identity
import SnippetEval.Proofs.Fingerprint.NameSet
import SnippetEval.Proofs.Fingerprint.Streams
import SnippetEval.Proofs.FlatPairs
import SnippetEval.Proofs.Invocation
import SnippetEval.Proofs.Outward
import SnippetEval.Proofs.Resolution
import SnippetEval.Proofs.Snippet.Arithmetic
import SnippetEval.Proofs.Snippet.Erasure
import SnippetEval.Proofs.Snippet.Faults
import SnippetEval.Proofs.Snippet.Grammar
import SnippetEval.Proofs.Snippet.LongestMatch
import SnippetEval.Proofs.Snippet.Parsing
import SnippetEval.Proofs.Snippet.Parts
import SnippetEval.Proofs.Snippet.Placement
import SnippetEval.Proofs.Snippet.Reading
import SnippetEval.Proofs.Snippet.Rules
import SnippetEval.Proofs.Snippet.Spacing
import SnippetEval.Proofs.Snippet.TextLiterals
import SnippetEval.Proofs.Snippet.Tiling
import SnippetEval.Proofs.Snippet.ViablePrefix
import SnippetEval.Proofs.Source.Descent
import SnippetEval.Proofs.Source.Scoping
import SnippetEval.Proofs.Symbols
import SnippetEval.Proofs.Table
import SnippetEval.Proofs.Typing.Conformance
import SnippetEval.Proofs.Typing.Erasure
import SnippetEval.Proofs.Typing.Findings
import SnippetEval.Proofs.Typing.Issues
import SnippetEval.Proofs.Typing.Lookup
import SnippetEval.Proofs.Typing.Operators
import SnippetEval.Proofs.Typing.Reads
import SnippetEval.Proofs.Typing.Rejection
import SnippetEval.Proofs.Typing.Soundness
import SnippetEval.Proofs.Typing.Supplied
import SnippetEval.Resolution
import SnippetEval.Sandbox
import SnippetEval.Session
import SnippetEval.Sha256
import SnippetEval.Snippet.Lexer
import SnippetEval.Snippet.Parser
import SnippetEval.Snippet.Running
import SnippetEval.Snippet.Token
import SnippetEval.Snippet.Tree
import SnippetEval.Snippet.Typing
import SnippetEval.Source.Anchor
import SnippetEval.Source.Node
import SnippetEval.Source.Span
import SnippetEval.Symbols
import SnippetEval.Table
import SnippetEval.Text.Marks
import SnippetEval.Text.Quoted
import SnippetEval.Text.Unassigned
import SnippetEval.Value
import SnippetEval.ValueType
