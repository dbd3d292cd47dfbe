import SnippetEval.Source.Span

namespace SnippetEval

structure Ident where
  name : String
  span : Span
  deriving DecidableEq, Repr

inductive Literal
  | null
  | bool (value : Bool)
  | int (value : Int64)
  | float (value : Float)
  | text (value : String)

inductive UnaryOp
  | negate
  | not
  deriving DecidableEq, Repr

inductive BinaryOp
  | mul
  | div
  | rem
  | add
  | sub
  | less
  | lessEqual
  | greater
  | greaterEqual
  | equal
  | notEqual
  | and
  | or
  deriving DecidableEq, Repr

inductive Expr
  | literal (value : Literal) (span : Span)
  | name (ident : Ident)
  | this (span : Span)
  | field (object : Expr) (name : Ident) (span : Span)
  | unary (op : UnaryOp) (operand : Expr) (span : Span)
  | binary (op : BinaryOp) (left right : Expr) (span : Span)

structure Binding where
  name : Ident
  value : Expr
  span : Span

structure Snippet where
  bindings : List Binding
  result : Option Expr
  span : Span

def UnaryOp.symbol : UnaryOp → String
  | negate => "-"
  | not => "!"

namespace BinaryOp

def symbol : BinaryOp → String
  | mul => "*"
  | div => "/"
  | rem => "%"
  | add => "+"
  | sub => "-"
  | less => "<"
  | lessEqual => "<="
  | greater => ">"
  | greaterEqual => ">="
  | equal => "=="
  | notEqual => "!="
  | and => "&&"
  | or => "||"

def level : BinaryOp → Nat
  | or => 1
  | and => 2
  | equal | notEqual => 3
  | less | lessEqual | greater | greaterEqual => 4
  | add | sub => 5
  | mul | div | rem => 6

def isComparison : BinaryOp → Bool
  | less | lessEqual | greater | greaterEqual => true
  | _ => false

end BinaryOp

def Expr.span : Expr → Span
  | literal _ s => s
  | name i => i.span
  | this s => s
  | field _ _ s => s
  | unary _ _ s => s
  | binary _ _ _ s => s

end SnippetEval
