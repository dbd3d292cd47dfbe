import SnippetEval.Source.Anchor
import SnippetEval.Symbols

namespace SnippetEval

structure FieldDef where
  name : String
  type : ValueType
  deriving DecidableEq, Repr

structure TypeDef where
  name : String
  enclosing : Option String := none
  source : Option SourceNode := none
  fields : List FieldDef := []
  hidden : Bool := false

namespace TypeDef

def fieldSymbols (t : TypeDef) : SymbolTable :=
  t.fields.foldl (fun table f => table.insert f.name ⟨f.type, .field⟩) Table.empty

def declareVariables (offset : Nat) (table : SymbolTable) (scope : SourceNode) : SymbolTable :=
  scope.children.foldl
    (fun table c =>
      match c.kind with
      | .declaration name type =>
        if c.span.start ≤ offset then table.insert name ⟨type, .variable⟩ else table
      | _ => table)
    table

def symbolsAt (t : TypeDef) (offset : Nat) : SymbolTable :=
  match t.source with
  | none => t.fieldSymbols
  | some root =>
    match root.deepestAt offset with
    | none => t.fieldSymbols
    | some (_, path) => (root.walk path).foldl (declareVariables offset) t.fieldSymbols

end TypeDef

structure Sandbox where
  types : Table String TypeDef := .empty
  generation : Nat := 0
  includeAll : Nat := 0
  compiles : Nat := 0

namespace Sandbox

def define (s : Sandbox) (t : TypeDef) : Sandbox :=
  { s with types := s.types.insert t.name t, generation := s.generation + 1 }

def refresh (s : Sandbox) : Sandbox := { s with generation := s.generation + 1 }

def enterIncludeAll (s : Sandbox) : Sandbox := { s with includeAll := s.includeAll + 1 }

def exitIncludeAll (s : Sandbox) : Sandbox := { s with includeAll := s.includeAll - 1 }

def resolveType (s : Sandbox) (name : String) : Option TypeDef :=
  (s.types.get? name).filter fun t => !t.hidden || s.includeAll ≠ 0

/-- The type around another; hidden types count. -/
def enclosing (s : Sandbox) (t : TypeDef) : Option TypeDef := t.enclosing.bind s.types.get?

end Sandbox

end SnippetEval
