import SnippetEval.Table
import SnippetEval.Value

namespace SnippetEval

inductive SymbolKind
  | field
  | variable
  | external
  deriving DecidableEq, Repr

structure SymbolInfo where
  type : ValueType
  kind : SymbolKind
  deriving DecidableEq, Repr

abbrev SymbolTable := Table String SymbolInfo

/-- A supplied name keeps the type it is declared with, if it is visible anyway. -/
def SymbolTable.declareExternal (t : SymbolTable) (name : String) : SymbolTable :=
  match t.get? name with
  | some info => t.insert name { info with kind := .external }
  | none => t.insert name ⟨.any, .external⟩

def SymbolTable.declareExternals (t : SymbolTable) (names : List String) : SymbolTable :=
  names.foldl declareExternal t

structure RuntimeSymbol where
  declaredType : ValueType
  value : Value

abbrev RuntimeEnv := Table String RuntimeSymbol

inductive MalformedPairs
  | oddLength (length : Nat)
  | nameNotText (position : Nat) (type : ValueType)
  deriving DecidableEq, Repr

def MalformedPairs.message : MalformedPairs → String
  | oddLength n => "expected name/value pairs, got " ++ toString n ++ " items"
  | nameNotText i t => "name at position " ++ toString i ++ " is " ++ t.name ++ ", not a string"

namespace RuntimeEnv

def value? (env : RuntimeEnv) (name : String) : Option Value := (env.get? name).map (·.value)

def bind (env : RuntimeEnv) (name : String) (value : Value) : RuntimeEnv :=
  env.insert name ⟨.any, value⟩

def bindPairs (position : Nat) (env : RuntimeEnv) : List Value → Except MalformedPairs RuntimeEnv
  | name :: value :: rest =>
    match name with
    | .text n => bindPairs (position + 2) (env.bind n value) rest
    | v => .error (.nameNotText position v.type)
  | _ => .ok env

def ofPairs (vs : List Value) : Except MalformedPairs RuntimeEnv :=
  if vs.length % 2 ≠ 0 then .error (.oddLength vs.length) else bindPairs 0 Table.empty vs

def ofList (l : List (String × Value)) : RuntimeEnv :=
  l.foldl (fun env e => env.bind e.1 e.2) Table.empty

end RuntimeEnv

end SnippetEval
