import SnippetEval.Diagnostic
import SnippetEval.Snippet.Tree
import SnippetEval.Symbols
/-!
Checking a snippet against what is visible to it. `infer` gives an expression a type and reports
what is wrong with it and what it takes from its surroundings. An operand of type `any` leaves the
question to the run, except beside a type that `+` takes only with a text.
-/

namespace SnippetEval

structure Scope where
  symbols : SymbolTable
  hasInstance : Bool
  bound : Table String ValueType := .empty

structure Findings where
  issues : List Diagnostic := []
  usesInstance : Bool := false
  usesEnv : Bool := false
  fields : List String := []

def Findings.append (a b : Findings) : Findings where
  issues := a.issues ++ b.issues
  usesInstance := a.usesInstance || b.usesInstance
  usesEnv := a.usesEnv || b.usesEnv
  fields := a.fields ++ b.fields

instance : Append Findings := ⟨Findings.append⟩

def typeError (span : Span) (message : String) : Findings :=
  { issues := [{ code := some Code.typeError, severity := .error, span, message }] }

def unknownName (name : Ident) : Findings :=
  { issues := [{
      code := some Code.unknownName, severity := .error, span := name.span
      message := "unknown name `" ++ name.name ++ "`"
      hint := some ("pass `" ++ name.name ++ "` as an external symbol") }] }

def shadowing (name : Ident) : Findings :=
  { issues := [{
      code := some Code.shadowing, severity := .warning, span := name.span
      message := "`" ++ name.name ++ "` shadows a visible symbol" }] }

def Scope.takeInstance (s : Scope) (span : Span) (what : String) (fields : List String) :
    Findings :=
  if s.hasInstance then { usesInstance := true, fields }
  else
    { issues := [{
        code := some Code.noInstance, severity := .error, span
        message := what ++ " is not available without an enclosing instance"
        hint := some
          "evaluate inside a non-static context or pass the value as an external symbol" }] }

def Scope.inferName (s : Scope) (name : Ident) : ValueType × Findings :=
  match s.bound.get? name.name, s.symbols.get? name.name with
  | some t, _ => (t, {})
  | none, none => (.any, unknownName name)
  | none, some ⟨t, .field⟩ =>
    (t, s.takeInstance name.span ("field `" ++ name.name ++ "`") [name.name])
  | none, some ⟨t, .variable⟩ | none, some ⟨t, .external⟩ => (t, { usesEnv := true })

def Literal.type : Literal → ValueType
  | null => .null
  | bool _ => .bool
  | int _ => .int
  | float _ => .float
  | text _ => .string

def ValueType.mayBe (t u : ValueType) : Bool := t = u || t = .any

def UnaryOp.resultType : UnaryOp → ValueType → Option ValueType
  | negate, t => if t.isNumeric || t = .any then some t else none
  | not, t => if t.mayBe .bool then some .bool else none

def comparisonType (l r : ValueType) : Option ValueType :=
  if l = .any || r = .any || (l = .string && r = .string) || (l.isNumeric && r.isNumeric) then
    some .bool
  else none

def arithmeticType (l r : ValueType) : Option ValueType :=
  if l = .int && r = .int then some .int
  else if (l = .any && (r.isNumeric || r = .any)) || (r = .any && l.isNumeric) then some .any
  else if l.isNumeric && r.isNumeric then some .float
  else none

/-- Without a type where the operator does not take the types. `any` beside null, a truth value or an
object is not taken by `+`, though it may stand for a text. -/
def BinaryOp.resultType (op : BinaryOp) (l r : ValueType) : Option ValueType :=
  match op with
  | equal | notEqual => some .bool
  | and | or => if l.mayBe .bool && r.mayBe .bool then some .bool else none
  | less | lessEqual | greater | greaterEqual => comparisonType l r
  | add => if l = .string || r = .string then some .string else arithmeticType l r
  | sub | mul | div | rem => arithmeticType l r

def infer (s : Scope) : Expr → ValueType × Findings
  | .literal l _ => (l.type, {})
  | .name i => s.inferName i
  | .this span => (.object, s.takeInstance span "`this`" [])
  | .field e i _ =>
    let (t, found) := infer s e
    if t.mayBe .object then (.any, found)
    else
      (.any, found ++
        typeError i.span ("no field `" ++ i.name ++ "` on a value of type " ++ t.name))
  | .unary op e span =>
    let (t, found) := infer s e
    match op.resultType t with
    | some u => (u, found)
    | none => (.any, found ++ typeError span ("cannot apply `" ++ op.symbol ++ "` to " ++ t.name))
  | .binary op l r span =>
    let (t, left) := infer s l
    let (u, right) := infer s r
    match op.resultType t u with
    | some v => (v, left ++ right)
    | none =>
      (.any, left ++ right ++
        typeError span ("cannot apply `" ++ op.symbol ++ "` to " ++ t.name ++ " and " ++ u.name))

def checkBinding (s : Scope) (b : Binding) : Findings × Scope :=
  let (t, found) := infer s b.value
  let hides := s.symbols.contains b.name.name || s.bound.contains b.name.name
  (if hides then found ++ shadowing b.name else found,
    { s with bound := s.bound.insert b.name.name t })

def checkBindings (s : Scope) : List Binding → Findings × Scope
  | [] => ({}, s)
  | b :: bs =>
    let (first, s) := checkBinding s b
    let (rest, s) := checkBindings s bs
    (first ++ rest, s)

def Snippet.check (snippet : Snippet) (s : Scope) : Findings :=
  let (found, s) := checkBindings s snippet.bindings
  match snippet.result with
  | some e => found ++ (infer s e).2
  | none => found

end SnippetEval
