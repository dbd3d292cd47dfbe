import SnippetEval.Snippet.Lexer
import SnippetEval.Snippet.Tree
import SnippetEval.Text.Quoted
/-!
Tokens to snippets, one token at a time. A `ParseState` holds what has been read: complete bindings,
the binding being read, the operators and parentheses still open, and what may come next. `step`
refuses a token exactly where none of the state's `expected` classes has it, so a text is refused at
the first token that cannot go on.
-/

namespace SnippetEval

inductive Pending
  | group
  | unary (op : UnaryOp) (span : Span)
  | binary (op : BinaryOp) (left : Expr)

inductive Expecting
  | statement
  | bindingName (start : Span)
  | assign (start : Span) (name : Ident)
  | operand
  | operator (left : Expr)
  | member (object : Expr)

structure ParseState where
  bindings : List Binding
  binding : Option (Span × Ident)
  pending : List Pending
  expecting : Expecting

inductive TokenClass
  | exactly (t : Token)
  | literal
  | name
  | finish

def TokenClass.display : TokenClass → String
  | exactly t => "'" ++ t.display ++ "'"
  | literal => "something else"
  | name => "'<ident>'"
  | finish => "end of input"

inductive ParseError
  | unreadable (text : String) (span : Span)
  | unexpected (found : Option Token) (expected : List TokenClass) (span : Span)

def Token.literal? : Token → Option Literal
  | null => some .null
  | true => some (.bool Bool.true)
  | false => some (.bool Bool.false)
  | int n => some (.int n)
  | float x => some (.float x)
  | text s => some (.text s)
  | _ => none

def Token.unary? : Token → Option UnaryOp
  | minus => some .negate
  | bang => some .not
  | _ => none

def Token.binary? : Token → Option BinaryOp
  | star => some .mul
  | slash => some .div
  | percent => some .rem
  | plus => some .add
  | minus => some .sub
  | less => some .less
  | lessEqual => some .lessEqual
  | greater => some .greater
  | greaterEqual => some .greaterEqual
  | equal => some .equal
  | notEqual => some .notEqual
  | and => some .and
  | or => some .or
  | _ => none

/-- Completes the open operators that bind at least as tightly as the given level, up to the
innermost open parenthesis. -/
def reduce (level : Nat) (e : Expr) : List Pending → Expr × List Pending
  | .unary op span :: ps => reduce level (.unary op e (span.merge e.span)) ps
  | .binary op l :: ps =>
    if level ≤ op.level then reduce level (.binary op l e (l.span.merge e.span)) ps
    else (e, .binary op l :: ps)
  | ps => (e, ps)

def Pending.isGroup : Pending → Bool
  | group => true
  | _ => false

namespace ParseState

def start : ParseState := ⟨[], none, [], .statement⟩

def operandStarts : List TokenClass :=
  [.exactly .minus, .exactly .bang, .literal, .exactly .this, .name, .exactly .openParen]

def operators : List TokenClass :=
  [.dot, .star, .slash, .percent, .plus, .minus, .lessEqual, .less, .greaterEqual, .greater, .equal,
    .notEqual, .and, .or].map .exactly

def closing (s : ParseState) : TokenClass :=
  if s.pending.any Pending.isGroup then .exactly .closeParen
  else if s.binding.isSome then .exactly .semicolon
  else .finish

def expected (s : ParseState) : List TokenClass :=
  match s.expecting with
  | .statement => .exactly .letWord :: operandStarts ++ [.finish]
  | .bindingName _ | .member _ => [.name]
  | .assign .. => [.exactly .assign]
  | .operand => operandStarts
  | .operator _ => operators ++ [s.closing]

def stepOperand (s : ParseState) (x : Lexeme) : Option ParseState :=
  match x.token.unary?, x.token.literal?, x.token with
  | some op, _, _ => some { s with pending := .unary op x.span :: s.pending, expecting := .operand }
  | _, some l, _ => some { s with expecting := .operator (.literal l x.span) }
  | _, _, .this => some { s with expecting := .operator (.this x.span) }
  | _, _, .name n => some { s with expecting := .operator (.name ⟨n, x.span⟩) }
  | _, _, .openParen => some { s with pending := .group :: s.pending, expecting := .operand }
  | _, _, _ => none

def stepOperator (s : ParseState) (e : Expr) (x : Lexeme) : Option ParseState :=
  match x.token.binary?, x.token with
  | some op, _ =>
    let (left, pending) := reduce op.level e s.pending
    some { s with pending := .binary op left :: pending, expecting := .operand }
  | _, .dot => some { s with expecting := .member e }
  | _, .closeParen =>
    match reduce 0 e s.pending with
    | (inner, .group :: pending) => some { s with pending := pending, expecting := .operator inner }
    | _ => none
  | _, .semicolon =>
    match s.binding, reduce 0 e s.pending with
    | some (start, name), (value, []) =>
      some ⟨s.bindings ++ [⟨name, value, start.merge x.span⟩], none, [], .statement⟩
    | _, _ => none
  | _, _ => none

def step (s : ParseState) (x : Lexeme) : Option ParseState :=
  match s.expecting, x.token with
  | .statement, .letWord => some { s with expecting := .bindingName x.span }
  | .statement, _ | .operand, _ => s.stepOperand x
  | .bindingName start, .name n => some { s with expecting := .assign start ⟨n, x.span⟩ }
  | .assign start name, .assign =>
    some { s with binding := some (start, name), expecting := .operand }
  | .operator e, _ => s.stepOperator e x
  | .member object, .name n =>
    some { s with expecting := .operator (.field object ⟨n, x.span⟩ (object.span.merge x.span)) }
  | _, _ => none

def finish? (s : ParseState) : Option (List Binding × Option Expr) :=
  match s.expecting, s.binding with
  | .statement, _ => some (s.bindings, none)
  | .operator e, none =>
    match reduce 0 e s.pending with
    | (result, []) => some (s.bindings, some result)
    | _ => none
  | _, _ => none

def run (s : ParseState) : List Lexeme → Except (Lexeme × ParseState) ParseState
  | [] => .ok s
  | x :: xs =>
    match s.step x with
    | some t => t.run xs
    | none => .error (x, s)

end ParseState

def coveredSpan (length : Nat) (xs : List Lexeme) : Span :=
  match xs.head?, xs.getLast? with
  | some x, some y => ⟨x.span.start, y.span.stop⟩
  | _, _ => ⟨length, length⟩

def parseLexemes (length : Nat) (xs : List Lexeme) : Except ParseError Snippet :=
  match ParseState.start.run xs with
  | .error (x, s) => .error (.unexpected (some x.token) s.expected x.span)
  | .ok s =>
    match s.finish? with
    | some (bindings, result) => .ok ⟨bindings, result, coveredSpan length xs⟩
    | none => .error (.unexpected none s.expected ⟨length, length⟩)

structure Parsed where
  snippet : Option Snippet
  errors : List ParseError

def parse (source : String) : Parsed :=
  let lexed := lex source
  let errors := lexed.errors.map fun e => ParseError.unreadable e.text e.span
  match parseLexemes source.utf8ByteSize lexed.lexemes with
  | .ok snippet => ⟨some snippet, errors⟩
  | .error e => ⟨none, errors ++ [e]⟩

def alternatives : List String → String
  | [] => ""
  | [a] => a
  | [a, b] => a ++ ", or " ++ b
  | a :: as => a ++ ", " ++ alternatives as

namespace ParseError

def span : ParseError → Span
  | unreadable _ s => s
  | unexpected _ _ s => s

def message : ParseError → String
  | unreadable text _ => "unexpected input: " ++ Text.quote text
  | unexpected found expected _ =>
    let shown := match found with
      | some t => "'" ++ t.display ++ "'"
      | none => "end of input"
    "found " ++ shown ++ " expected " ++ alternatives (expected.map TokenClass.display)

end ParseError

end SnippetEval
