import SnippetEval.Snippet.Token
import SnippetEval.Decimal.Reading
/-!
Snippet text to tokens. `Piece.scan` takes the longest piece at the front of a text: blank space,
a token, or something unreadable. `tile` takes pieces until no text is left, and `Lexed.ofTiles`
gives them their places.
-/

namespace SnippetEval

inductive Piece
  | blank
  | token (t : Token)
  | unreadable

namespace Piece

def isBlank (c : Char) : Bool := c = ' ' || c = '\t' || c = '\r' || c = '\n'

def isNameStart (c : Char) : Bool := c.isAlpha || c = '_'

def isNameRest (c : Char) : Bool := c.isAlphanum || c = '_'

def run (p : Char → Bool) (cs : List Char) : Nat := (cs.takeWhile p).length

def fraction : List Char → Nat
  | '.' :: cs => if run Char.isDigit cs = 0 then 0 else run Char.isDigit cs + 1
  | _ => 0

def signLength : List Char → Nat
  | '+' :: _ | '-' :: _ => 1
  | _ => 0

def exponent : List Char → Nat
  | c :: cs =>
    let s := signLength cs
    let n := run Char.isDigit (cs.drop s)
    if (c = 'e' ∨ c = 'E') ∧ n ≠ 0 then 1 + s + n else 0
  | [] => 0

/-- The text inside quotes up to the closing one, and whether there is one; a backslash takes the
next character with it unless that is a newline. -/
def stringBody : List Char → Nat × Bool
  | '"' :: _ => (0, true)
  | '\\' :: c :: cs =>
    if c = '\n' then (0, false) else
      let (n, closed) := stringBody cs
      (n + 2, closed)
  | ['\\'] => (0, false)
  | _ :: cs =>
    let (n, closed) := stringBody cs
    (n + 1, closed)
  | [] => (0, false)

def escapes : List (Char × Char) := [('"', '"'), ('\\', '\\'), ('n', '\n'), ('t', '\t')]

def unescape : List Char → Option (List Char)
  | [] => some []
  | '\\' :: c :: cs => (escapes.lookup c).bind fun d => (unescape cs).map (d :: ·)
  | ['\\'] => none
  | c :: cs => (unescape cs).map (c :: ·)

def ofInt (digits : List Char) : Piece :=
  match Decimal.readInt digits with
  | some n => token (.int n)
  | none => unreadable

def ofFloat (text : List Char) : Piece :=
  match Decimal.readFloat text with
  | some x => token (.float x)
  | none => unreadable

def ofBody (body : List Char) : Piece :=
  match unescape body with
  | some cs => token (.text (String.ofList cs))
  | none => unreadable

def scanNumber (c : Char) (cs : List Char) : Piece × Nat :=
  let n := run Char.isDigit cs
  let f := fraction (cs.drop n)
  if f = 0 then (ofInt (c :: cs.take n), n)
  else
    let m := n + f + exponent (cs.drop (n + f))
    (ofFloat (c :: cs.take m), m)

def scanString (cs : List Char) : Piece × Nat :=
  let (n, closed) := stringBody cs
  if closed then (ofBody (cs.take n), n + 1) else (unreadable, n)

def scanSymbol : Char → List Char → Piece × Nat
  | '=', '=' :: _ => (token .equal, 1)
  | '!', '=' :: _ => (token .notEqual, 1)
  | '<', '=' :: _ => (token .lessEqual, 1)
  | '>', '=' :: _ => (token .greaterEqual, 1)
  | '&', '&' :: _ => (token .and, 1)
  | '|', '|' :: _ => (token .or, 1)
  | '=', _ => (token .assign, 0)
  | '!', _ => (token .bang, 0)
  | '<', _ => (token .less, 0)
  | '>', _ => (token .greater, 0)
  | ';', _ => (token .semicolon, 0)
  | '+', _ => (token .plus, 0)
  | '-', _ => (token .minus, 0)
  | '*', _ => (token .star, 0)
  | '/', _ => (token .slash, 0)
  | '%', _ => (token .percent, 0)
  | '.', _ => (token .dot, 0)
  | '(', _ => (token .openParen, 0)
  | ')', _ => (token .closeParen, 0)
  | _, _ => (unreadable, 0)

def scan (c : Char) (cs : List Char) : Piece × Nat :=
  if isBlank c then (blank, run isBlank cs)
  else if c = '/' ∧ cs.head? = some '/' then (blank, run (· ≠ '\n') cs)
  else if isNameStart c then
    let n := run isNameRest cs
    (token (Token.ofWord (c :: cs.take n)), n)
  else if c.isDigit then scanNumber c cs
  else if c = '"' then scanString cs
  else scanSymbol c cs

end Piece

structure Tile where
  piece : Piece
  text : List Char

def tile : List Char → List Tile
  | [] => []
  | c :: cs =>
    let (piece, n) := Piece.scan c cs
    ⟨piece, c :: cs.take n⟩ :: tile (cs.drop n)
termination_by cs => cs.length
decreasing_by simp only [List.length_drop, List.length_cons]; omega

def byteLength (cs : List Char) : Nat := (String.ofList cs).utf8ByteSize

structure Unreadable where
  text : String
  span : Span

structure Lexed where
  lexemes : List Lexeme
  errors : List Unreadable

namespace Lexed

def cons (t : Tile) (span : Span) (r : Lexed) : Lexed :=
  match t.piece with
  | .blank => r
  | .token token => { r with lexemes := ⟨token, span⟩ :: r.lexemes }
  | .unreadable => { r with errors := ⟨String.ofList t.text, span⟩ :: r.errors }

def ofTiles (offset : Nat) : List Tile → Lexed
  | [] => ⟨[], []⟩
  | t :: ts =>
    let stop := offset + byteLength t.text
    cons t ⟨offset, stop⟩ (ofTiles stop ts)

end Lexed

def lex (source : String) : Lexed := .ofTiles 0 (tile source.toList)

end SnippetEval
