import SnippetEval.Source.Span
import SnippetEval.ValueType

namespace SnippetEval

inductive NodeKind
  | type (name : String)
  | function (name : String) (isStatic : Bool)
  | block
  | declaration (name : String) (type : ValueType)
  | closure
  | statement
  deriving DecidableEq, Repr

def NodeKind.display : NodeKind → String
  | type name => "type " ++ name
  | function name isStatic => (if isStatic then "static fn " else "fn ") ++ name
  | block => "block"
  | declaration name t => "local " ++ name ++ ": " ++ t.name
  | closure => "closure"
  | statement => "statement"

inductive SourceNode
  | node (kind : NodeKind) (span : Span) (children : List SourceNode)

namespace SourceNode

def kind : SourceNode → NodeKind
  | node kind _ _ => kind

def span : SourceNode → Span
  | node _ span _ => span

def children : SourceNode → List SourceNode
  | node _ _ children => children

mutual

/-- Goes on into the first child around the offset until no child is; the path counts children. -/
def descend (offset : Nat) : SourceNode → SourceNode × List Nat
  | node kind span children =>
    match descendFirst offset 0 children with
    | none => (node kind span children, [])
    | some found => found

def descendFirst (offset : Nat) : Nat → List SourceNode → Option (SourceNode × List Nat)
  | _, [] => none
  | i, c :: cs =>
    if c.span.contains offset then
      let (found, path) := descend offset c
      some (found, i :: path)
    else descendFirst offset (i + 1) cs

end

def deepestAt (root : SourceNode) (offset : Nat) : Option (SourceNode × List Nat) :=
  if root.span.contains offset then some (root.descend offset) else none

def walk (root : SourceNode) : List Nat → List SourceNode
  | [] => [root]
  | i :: path =>
    match root.children[i]? with
    | some c => root :: c.walk path
    | none => [root]

end SourceNode

end SnippetEval
