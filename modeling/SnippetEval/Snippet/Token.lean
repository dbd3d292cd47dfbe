import SnippetEval.Decimal.Shortest
import SnippetEval.Source.Span

namespace SnippetEval

inductive Token
  | letWord
  | this
  | true
  | false
  | null
  | semicolon
  | assign
  | equal
  | notEqual
  | less
  | lessEqual
  | greater
  | greaterEqual
  | and
  | or
  | bang
  | plus
  | minus
  | star
  | slash
  | percent
  | dot
  | openParen
  | closeParen
  | float (value : Float)
  | int (value : Int64)
  | text (value : String)
  | name (text : String)

namespace Token

def display : Token → String
  | letWord => "let"
  | this => "this"
  | true => "true"
  | false => "false"
  | null => "null"
  | semicolon => ";"
  | assign => "="
  | equal => "=="
  | notEqual => "!="
  | less => "<"
  | lessEqual => "<="
  | greater => ">"
  | greaterEqual => ">="
  | and => "&&"
  | or => "||"
  | bang => "!"
  | plus => "+"
  | minus => "-"
  | star => "*"
  | slash => "/"
  | percent => "%"
  | dot => "."
  | openParen => "("
  | closeParen => ")"
  | float x => Decimal.valueLayout.render x
  | int n => toString n.toInt
  | text s => "\"" ++ s ++ "\""
  | name _ => "<ident>"

def ofWord : List Char → Token
  | ['l', 'e', 't'] => letWord
  | ['t', 'h', 'i', 's'] => this
  | ['t', 'r', 'u', 'e'] => true
  | ['f', 'a', 'l', 's', 'e'] => false
  | ['n', 'u', 'l', 'l'] => null
  | cs => name (String.ofList cs)

end Token

structure Lexeme where
  token : Token
  span : Span

end SnippetEval
