namespace SnippetEval

inductive ValueType
  | any
  | null
  | bool
  | int
  | float
  | string
  | object
  deriving DecidableEq, Repr, Inhabited

namespace ValueType

def name : ValueType → String
  | any => "any"
  | null => "null"
  | bool => "bool"
  | int => "int"
  | float => "float"
  | string => "string"
  | object => "object"

def all : List ValueType := [any, null, bool, int, float, string, object]

def ofName? (s : String) : Option ValueType := all.find? (·.name = s)

def isNumeric : ValueType → Bool
  | int | float => true
  | _ => false

end ValueType

end SnippetEval
