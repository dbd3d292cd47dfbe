import SnippetEval.Decimal.Shortest
import SnippetEval.ValueType
/-!
Values and the objects among them. Objects are immutable and may be shared; each carries an
identity, and equality of objects is equality of identities.
-/

namespace SnippetEval

structure Identity where
  stamp : Nat
  name : String
  deriving DecidableEq, Repr

mutual

inductive Value
  | null
  | bool (value : Bool)
  | int (value : Int64)
  | float (value : Float)
  | text (value : String)
  | object (value : Instance)

inductive Instance
  | mk (identity : Identity) (typeName : String) (fields : List (String × Value))
      (outer : Option Instance)

end

instance : Inhabited Value := ⟨.null⟩

namespace Instance

def identity : Instance → Identity
  | mk i _ _ _ => i

def typeName : Instance → String
  | mk _ t _ _ => t

def fields : Instance → List (String × Value)
  | mk _ _ fs _ => fs

def outer : Instance → Option Instance
  | mk _ _ _ o => o

def field? (o : Instance) (name : String) : Option Value := o.fields.lookup name

def display (o : Instance) : String := "<" ++ o.typeName ++ ">"

end Instance

namespace Value

def type : Value → ValueType
  | null => .null
  | bool _ => .bool
  | int _ => .int
  | float _ => .float
  | text _ => .string
  | object _ => .object

def text? : Value → Option String
  | text s => some s
  | _ => none

def int? : Value → Option Int64
  | int n => some n
  | _ => none

def object? : Value → Option Instance
  | object o => some o
  | _ => none

/-- Numbers are equal across int and float if the int, rounded to a float, is the float. -/
def equal : Value → Value → Bool
  | null, null => true
  | bool a, bool b => a == b
  | int a, int b => a == b
  | float a, float b => a == b
  | int a, float b | float b, int a => a.toFloat == b
  | text a, text b => a == b
  | object a, object b => a.identity == b.identity
  | _, _ => false

def display : Value → String
  | null => "null"
  | bool b => toString b
  | int n => toString n.toInt
  | float x => Decimal.valueLayout.render x
  | text s => s
  | object o => o.display

end Value

end SnippetEval
