namespace SnippetEval

structure Span where
  start : Nat
  stop : Nat
  deriving DecidableEq, Repr, Inhabited

namespace Span

def contains (s : Span) (offset : Nat) : Bool := s.start ≤ offset && offset < s.stop

def merge (a b : Span) : Span := ⟨min a.start b.start, max a.stop b.stop⟩

def length (s : Span) : Nat := s.stop - s.start

def isEmpty (s : Span) : Bool := s.length = 0

def display (s : Span) : String := toString s.start ++ ".." ++ toString s.stop

end Span

end SnippetEval
