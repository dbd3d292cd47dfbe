import SnippetEval.EvalError
import SnippetEval.Decimal.Reading
import SnippetEval.Snippet.Tree
import SnippetEval.Symbols

namespace SnippetEval

abbrev Run := Except ExecutionFault

def fault {α : Type} (kind : FaultKind) (message : String) : Run α := .error { kind, message }

structure Frame where
  receiver : Option Instance
  env : Option RuntimeEnv
  fields : List String
  bound : Table String Value := .empty

def Frame.getReceiver (f : Frame) : Run Instance :=
  match f.receiver with
  | some o => .ok o
  | none => fault .host "unit was run without its enclosing instance"

def Instance.read (o : Instance) (name : String) : Run Value :=
  match o.field? name with
  | some v => .ok v
  | none => fault .missingField (o.display ++ " has no field `" ++ name ++ "`")

def Frame.read (f : Frame) (name : String) : Run Value :=
  match f.bound.get? name with
  | some v => .ok v
  | none =>
    if f.fields.contains name then do (← f.getReceiver).read name
    else match f.env.bind (·.value? name) with
      | some v => .ok v
      | none => fault .unboundSymbol ("no value for `" ++ name ++ "`")

def Literal.value : Literal → Value
  | null => .null
  | bool b => .bool b
  | int n => .int n
  | float x => .float x
  | text s => .text s

def UnaryOp.apply : UnaryOp → Value → Run Value
  | negate, .int n =>
    match Decimal.int64? (-n.toInt) with
    | some m => .ok (.int m)
    | none => fault .overflow ("-(" ++ toString n.toInt ++ ") overflows")
  | negate, .float x => .ok (.float (-x))
  | not, .bool b => .ok (.bool !b)
  | op, v => fault .typeMismatch ("cannot apply `" ++ op.symbol ++ "` to " ++ v.type.name)

namespace BinaryOp

def choose (op : BinaryOp) (less atMost more atLeast : Bool) : Bool :=
  match op with
  | .less => less
  | .lessEqual => atMost
  | .greater => more
  | _ => atLeast

def exact (op : BinaryOp) (a b : Int) : Option Int :=
  match op with
  | add => some (a + b)
  | sub => some (a - b)
  | mul => some (a * b)
  | div => if b = 0 then none else some (a.tdiv b)
  | rem => if b = 0 then none else some (a.tmod b)
  | _ => none

/-- A remainder overflows with its quotient. -/
def applyInt (op : BinaryOp) (a b : Int) : Run Value :=
  if op.isComparison then .ok (.bool (op.choose (a < b) (a ≤ b) (a > b) (a ≥ b)))
  else
    let quotient := if op = rem then a.tdiv b else 0
    match op.exact a b with
    | none => fault .divisionByZero (toString a ++ " " ++ op.symbol ++ " 0")
    | some n =>
      match Decimal.int64? n, Decimal.int64? quotient with
      | some m, some _ => .ok (.int m)
      | _, _ =>
        fault .overflow (toString a ++ " " ++ op.symbol ++ " " ++ toString b ++ " overflows")

def applyFloat (op : BinaryOp) (a b : Float) : Value :=
  match op with
  | add => .float (a + b)
  | sub => .float (a - b)
  | mul => .float (a * b)
  | div => .float (a / b)
  | rem => .float (Float.remainder a b)
  | op => .bool (op.choose (a < b) (a ≤ b) (a > b) (a ≥ b))

def mismatch (op : BinaryOp) (a b : Value) : Run Value :=
  fault .typeMismatch
    ("cannot apply `" ++ op.symbol ++ "` to " ++ a.type.name ++ " and " ++ b.type.name)

def applyOrdered (op : BinaryOp) : Value → Value → Run Value
  | .int a, .int b => op.applyInt a.toInt b.toInt
  | .int a, .float b => .ok (op.applyFloat a.toFloat b)
  | .float a, .int b => .ok (op.applyFloat a b.toFloat)
  | .float a, .float b => .ok (op.applyFloat a b)
  | .text a, .text b =>
    if op.isComparison then .ok (.bool (op.choose (a < b) (a ≤ b) (a > b) (a ≥ b)))
    else op.mismatch (.text a) (.text b)
  | a, b => op.mismatch a b

def apply (op : BinaryOp) (a b : Value) : Run Value :=
  match op with
  | and | or => op.mismatch a b
  | equal => .ok (.bool (a.equal b))
  | notEqual => .ok (.bool !a.equal b)
  | add =>
    if a.type = .string ∨ b.type = .string then .ok (.text (a.display ++ b.display))
    else add.applyOrdered a b
  | op => op.applyOrdered a b

def truth (op : BinaryOp) : Value → Run Bool
  | .bool b => .ok b
  | v => fault .typeMismatch ("`" ++ op.symbol ++ "` expects bool, found " ++ v.type.name)

end BinaryOp

namespace Frame

def eval (f : Frame) : Expr → Run Value
  | .literal l _ => .ok l.value
  | .name i => f.read i.name
  | .this _ => return .object (← f.getReceiver)
  | .field e i _ => do
    match ← eval f e with
    | .object o => o.read i.name
    | v => fault .typeMismatch ("cannot read field `" ++ i.name ++ "` of " ++ v.type.name)
  | .unary op e _ => do op.apply (← eval f e)
  | .binary .and l r _ => do
    if ← BinaryOp.and.truth (← eval f l) then
      return .bool (← BinaryOp.and.truth (← eval f r))
    else return .bool false
  | .binary .or l r _ => do
    if ← BinaryOp.or.truth (← eval f l) then return .bool true
    else return .bool (← BinaryOp.or.truth (← eval f r))
  | .binary op l r _ => do
    let a ← eval f l
    let b ← eval f r
    op.apply a b

def runBindings (f : Frame) : List Binding → Run Frame
  | [] => .ok f
  | b :: bs => do
    let v ← f.eval b.value
    runBindings { f with bound := f.bound.insert b.name.name v } bs

def run (f : Frame) (snippet : Snippet) : Run Value := do
  let f ← f.runBindings snippet.bindings
  match snippet.result with
  | some e => f.eval e
  | none => .ok .null

end Frame

end SnippetEval
