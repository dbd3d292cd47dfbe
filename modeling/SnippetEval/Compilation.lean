import SnippetEval.CompiledUnit
import SnippetEval.Sandbox
import SnippetEval.Snippet.Parser
import SnippetEval.Snippet.Typing

namespace SnippetEval

structure CompileRequest where
  fingerprint : Fingerprint
  source : String
  context : Option TypeDef
  symbols : SymbolTable
  anchor : Option Anchor

def CompileRequest.hasInstance (r : CompileRequest) : Bool :=
  match r.context, r.anchor with
  | none, _ => false
  | some _, none => true
  | some context, some anchor =>
    match context.source with
    | none => true
    | some root => !anchor.inStaticScope root

def ParseError.issue (e : ParseError) : Diagnostic where
  code := some Code.unparsable
  severity := .error
  span := e.span
  message := e.message

def CompileRequest.compileParsed (r : CompileRequest) (snippet : Snippet) : CompiledUnit :=
  let found := snippet.check { symbols := r.symbols, hasInstance := r.hasInstance }
  if found.issues.any Diagnostic.isError then .invalid r.fingerprint found.issues
  else
    { fingerprint := r.fingerprint
      shape := ⟨found.usesInstance, found.usesEnv⟩
      body := some (.program
        { snippet, instanceFields := found.fields, context := r.context.map TypeDef.name })
      issues := found.issues }

def CompileRequest.compile (r : CompileRequest) : CompiledUnit :=
  let parsed := parse r.source
  match parsed.snippet, parsed.errors with
  | some snippet, [] => r.compileParsed snippet
  | _, errors => .invalid r.fingerprint (errors.map ParseError.issue)

def Sandbox.compile (s : Sandbox) (r : CompileRequest) : CompiledUnit × Sandbox :=
  (r.compile, { s with compiles := s.compiles + 1 })

end SnippetEval
