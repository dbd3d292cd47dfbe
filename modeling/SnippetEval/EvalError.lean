import SnippetEval.Diagnostic

namespace SnippetEval

inductive AnchorFailure
  | chainExhausted
  | depthExceeded (maximum : Nat)
  | offsetOutside (offset : Nat)
  | missingOuterInstance (level : Nat)
  deriving DecidableEq, Repr

inductive FaultKind
  | unboundSymbol
  | missingField
  | typeMismatch
  | divisionByZero
  | overflow
  | host
  deriving DecidableEq, Repr

structure ExecutionFault where
  kind : FaultKind
  message : String
  cause : Option String := none
  deriving DecidableEq, Repr

inductive EvalError
  | unresolvedContext (name : String)
  | noAnchor (context : String) (reason : AnchorFailure)
  | compilation (issues : List Diagnostic)
  | invocationShape (expected actual : String)
  | execution (fault : ExecutionFault)
  | invalidSymbols (reason : String)
  | forwarded (module : String) (source : EvalError)
  deriving DecidableEq, Repr

def AnchorFailure.message : AnchorFailure → String
  | chainExhausted => "no enclosing unit has a recorded source location"
  | depthExceeded n => "enclosing chain deeper than " ++ toString n ++ " levels"
  | offsetOutside n => "offset " ++ toString n ++ " is outside the context source"
  | missingOuterInstance n => "enclosing instance has no outer reference at level " ++ toString n

def FaultKind.name : FaultKind → String
  | unboundSymbol => "unbound symbol"
  | missingField => "missing field"
  | typeMismatch => "type mismatch"
  | divisionByZero => "division by zero"
  | overflow => "overflow"
  | host => "host failure"

def ExecutionFault.display (f : ExecutionFault) : String := f.kind.name ++ ": " ++ f.message

namespace EvalError

def message : EvalError → String
  | unresolvedContext name => "unresolved context type `" ++ name ++ "`"
  | noAnchor context reason => "no lexical anchor in `" ++ context ++ "`: " ++ reason.message
  | compilation issues =>
    "compilation failed: " ++ (issues.head?.map Diagnostic.display).getD ""
  | invocationShape expected actual =>
    "invocation shape mismatch: unit expects (" ++ expected ++ "), call supplies (" ++ actual ++ ")"
  | execution fault => "evaluation failed: " ++ fault.display
  | invalidSymbols reason => "malformed external symbols: " ++ reason
  | forwarded module source => "forwarded through module `" ++ module ++ "`: " ++ source.message

def firstIssue? : EvalError → Option Diagnostic
  | compilation issues => issues.head?
  | _ => none

def root : EvalError → EvalError
  | forwarded _ source => source.root
  | e => e

def sources : EvalError → List String
  | forwarded _ source => source.message :: source.sources
  | execution fault => fault.display :: fault.cause.toList
  | _ => []

end EvalError

end SnippetEval
