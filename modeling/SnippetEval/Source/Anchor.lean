import SnippetEval.Source.Node

namespace SnippetEval

structure Anchor where
  context : String
  path : List Nat
  kind : NodeKind
  span : Span
  deriving DecidableEq, Repr

namespace Anchor

def locate (context : String) (root : SourceNode) (offset : Nat) : Option Anchor :=
  (root.deepestAt offset).map fun (found, path) => ⟨context, path, found.kind, found.span⟩

def scopes (a : Anchor) (root : SourceNode) : List SourceNode := root.walk a.path

def inStaticScope (a : Anchor) (root : SourceNode) : Bool :=
  (a.scopes root).any fun n =>
    match n.kind with
    | .function _ isStatic => isStatic
    | _ => false

def display (a : Anchor) : String :=
  a.kind.display ++ " @ " ++ a.span.display ++ " in " ++ a.context

end Anchor

end SnippetEval
