import SnippetEval.EvalError
import SnippetEval.Sandbox

namespace SnippetEval

inductive Resolution
  | topLevel
  | within (context : TypeDef) (anchor : Anchor) (symbols : SymbolTable) (offset hops : Nat)

namespace Resolution

def context : Resolution → Option TypeDef
  | topLevel => none
  | within context _ _ _ _ => some context

def anchor : Resolution → Option Anchor
  | topLevel => none
  | within _ anchor _ _ _ => some anchor

def symbols : Resolution → SymbolTable
  | topLevel => .empty
  | within _ _ symbols _ _ => symbols

def offset : Resolution → Nat
  | topLevel => 0
  | within _ _ _ offset _ => offset

def hops : Resolution → Nat
  | topLevel => 0
  | within _ _ _ _ hops => hops

end Resolution

namespace Sandbox

def lookup (s : Sandbox) (name : String) : Except EvalError TypeDef :=
  match s.resolveType name with
  | some t => .ok t
  | none => .error (.unresolvedContext name)

/-- The nearest type with source at or around `t`, its source, and the steps taken to it. `hops`
steps led to `t` and `left` more are allowed. -/
def nearestFrom (s : Sandbox) (hops : Nat) :
    Nat → TypeDef → Except EvalError (TypeDef × SourceNode × Nat)
  | left, t =>
    match t.source with
    | some root => .ok (t, root, hops)
    | none =>
      match left with
      | 0 => .error (.noAnchor t.name (.depthExceeded hops))
      | left + 1 =>
        match s.enclosing t with
        | none => .error (.noAnchor t.name .chainExhausted)
        | some outer => s.nearestFrom (hops + 1) left outer

def nearestWithSource (s : Sandbox) (maxDepth : Nat) (t : TypeDef) :
    Except EvalError (TypeDef × SourceNode × Nat) :=
  s.nearestFrom 0 maxDepth t

/-- Without an enclosing type the evaluation is at top level, though a given immediate type must be
there; without an immediate type it is the enclosing one. -/
def resolve (s : Sandbox) (maxDepth : Nat) (enclosing immediate : Option String) (offset : Nat) :
    Except EvalError Resolution := do
  match enclosing with
  | none =>
    if let some name := immediate then
      let _ ← s.lookup name
    return .topLevel
  | some name =>
    let top ← s.lookup name
    let start ← match immediate with
      | some name => s.lookup name
      | none => pure top
    let (context, root, hops) ← s.nearestWithSource maxDepth start
    match Anchor.locate context.name root offset with
    | some anchor => return .within context anchor (context.symbolsAt offset) offset hops
    | none => throw (.noAnchor context.name (.offsetOutside offset))

end Sandbox

def Instance.walkFrom (context : String) (level : Nat) :
    Nat → Instance → Except EvalError Instance
  | 0, o => .ok o
  | n + 1, o =>
    match o.outer with
    | none => .error (.noAnchor context (.missingOuterInstance level))
    | some outer => walkFrom context (level + 1) n outer

def walkOuter (receiver : Option Instance) (hops : Nat) (context : String) :
    Except EvalError (Option Instance) :=
  match receiver with
  | none => .ok none
  | some o => (o.walkFrom context 1 hops).map some

end SnippetEval
