import SnippetEval.Json.Number

namespace SnippetEval.Json

/-- The problem met at one place by each way of reading. -/
structure Flaw where
  read : Problem
  skipped : Problem
  named : Problem

def Flaw.always (p : Problem) : Flaw := ⟨p, p, p⟩

inductive Token
  | openArray
  | closeArray
  | openObject
  | closeObject
  | colon
  | comma
  | null
  | bool (value : Bool)
  | number (value : Option Number)
  | string (value : Option String)
  | brokenString (flaw : Flaw)
  | broken (flaw : Flaw)

namespace Token

def isBlank (c : Char) : Bool := c = ' ' || c = '\n' || c = '\t' || c = '\r'

def hexValue? (c : Char) : Option Nat :=
  if c.isDigit then some (c.toNat - '0'.toNat)
  else if 'a' ≤ c ∧ c ≤ 'f' then some (c.toNat - 'a'.toNat + 10)
  else if 'A' ≤ c ∧ c ≤ 'F' then some (c.toNat - 'A'.toNat + 10)
  else none

def hexNumber? (cs : List Char) : Option Nat :=
  (cs.mapM hexValue?).map fun ds => ds.foldl (fun n d => 16 * n + d) 0

/-- Four hexadecimal digits; a text of fewer than four bytes is too short for them. -/
def hexFour (cs : List Char) : Read Nat :=
  if (String.ofList (cs.take 4)).utf8ByteSize < 4 then .error .unfinished
  else if (cs.take 4).length < 4 then .error .malformed
  else match hexNumber? (cs.take 4) with
    | some n => .ok n
    | none => .error .malformed

def shortEscapes : List (Char × Char) :=
  [('"', '"'), ('\\', '\\'), ('/', '/'), ('b', '\x08'), ('f', '\x0c'), ('n', '\n'), ('r', '\r'),
    ('t', '\t')]

def stringLength : List Char → Read Nat
  | [] => .error .unfinished
  | '"' :: _ => .ok 1
  | ['\\'] => .error .unfinished
  | '\\' :: c :: cs =>
    if c = 'u' then
      match hexFour cs with
      | .error p => .error p
      | .ok _ => (stringLength (cs.drop 4)).map (· + 6)
    else if (shortEscapes.lookup c).isSome then (stringLength cs).map (· + 2)
    else .error .malformed
  | c :: cs => if c.toNat < 32 then .error .malformed else (stringLength cs).map (· + 1)
termination_by cs => cs.length
decreasing_by all_goals simp only [List.length_drop, List.length_cons]; omega

def isHighSurrogate (n : Nat) : Bool := 0xD800 ≤ n && n ≤ 0xDBFF

def isLowSurrogate (n : Nat) : Bool := 0xDC00 ≤ n && n ≤ 0xDFFF

def lowSurrogate : List Char → Read Nat
  | [] => .error .unfinished
  | ['\\'] => .error .unfinished
  | '\\' :: 'u' :: cs => do
    let n ← hexFour cs
    if isLowSurrogate n then .ok n else .error .malformed
  | _ => .error .malformed

def stringText : List Char → Read (List Char)
  | [] => .error .unfinished
  | '"' :: _ => .ok []
  | ['\\'] => .error .unfinished
  | '\\' :: c :: cs =>
    if c = 'u' then
      match hexFour cs with
      | .error p => .error p
      | .ok n =>
        if isLowSurrogate n then .error .malformed
        else if isHighSurrogate n then
          match lowSurrogate (cs.drop 4) with
          | .error p => .error p
          | .ok m =>
            let c := Char.ofNat (0x10000 + (n - 0xD800) * 0x400 + (m - 0xDC00))
            (stringText (cs.drop 10)).map (c :: ·)
        else (stringText (cs.drop 4)).map (Char.ofNat n :: ·)
    else match shortEscapes.lookup c with
      | some d => (stringText cs).map (d :: ·)
      | none => .error .malformed
  | c :: cs => if c.toNat < 32 then .error .malformed else (stringText cs).map (c :: ·)
termination_by cs => cs.length
decreasing_by all_goals simp only [List.length_drop, List.length_cons]; omega

def scanString (cs : List Char) : Token × Nat :=
  match stringLength cs, stringText cs with
  | .ok n, .ok text => (string (some (String.ofList text)), n)
  | .ok n, .error _ => (string none, n)
  | .error p, .ok _ => (brokenString (.always p), 0)
  | .error p, .error q => (brokenString ⟨q, p, q⟩, 0)

def brokenNumber (rest : List Char) : Token :=
  let p := if rest.isEmpty then Problem.unfinished else .malformed
  broken ⟨p, .malformed, .malformed⟩

def scanFraction : List Char → Except (List Char) (Option (List Char) × List Char)
  | '.' :: cs =>
    let (ds, rest) := Decimal.digits cs
    if ds.isEmpty then .error rest else .ok (some ds, rest)
  | cs => .ok (none, cs)

def scanExponent : List Char → Except (List Char) (Option (Bool × List Char) × List Char)
  | c :: cs =>
    if c = 'e' ∨ c = 'E' then
      let (down, cs) := Decimal.sign cs
      let (ds, rest) := Decimal.digits cs
      if ds.isEmpty then .error rest else .ok (some (down, ds), rest)
    else .ok (none, c :: cs)
  | [] => .ok (none, [])

def scanNumber (cs : List Char) : Token × List Char :=
  let (negative, cs) := match cs with
    | '-' :: cs => (true, cs)
    | cs => (false, cs)
  let (whole, rest) := Decimal.digits cs
  if whole.isEmpty then (brokenNumber rest, rest)
  else if whole.head? = some '0' ∧ whole.length ≠ 1 then (broken (.always .malformed), rest)
  else match scanFraction rest with
    | .error rest => (brokenNumber rest, rest)
    | .ok (fraction, rest) =>
      match scanExponent rest with
      | .error rest => (brokenNumber rest, rest)
      | .ok (exponent, rest) =>
        (number (Number.Parts.value? ⟨negative, whole, fraction, exponent⟩), rest)

def scanWord (word : List Char) (t : Token) (cs : List Char) : Token × Nat :=
  if cs.take word.length = word then (t, word.length)
  else
    let p := if cs = word.take cs.length then Problem.unfinished else .malformed
    (broken ⟨p, p, .malformed⟩, 0)

def scan (c : Char) (cs : List Char) : Token × Nat :=
  match c with
  | '[' => (openArray, 0)
  | ']' => (closeArray, 0)
  | '\x7b' => (openObject, 0)
  | '\x7d' => (closeObject, 0)
  | ':' => (colon, 0)
  | ',' => (comma, 0)
  | '"' => scanString cs
  | 'n' => scanWord ['u', 'l', 'l'] null cs
  | 't' => scanWord ['r', 'u', 'e'] (bool true) cs
  | 'f' => scanWord ['a', 'l', 's', 'e'] (bool false) cs
  | c =>
    if c = '-' ∨ c.isDigit then
      let (t, rest) := scanNumber (c :: cs)
      (t, cs.length - rest.length)
    else (broken (.always .malformed), 0)

def isBroken : Token → Bool
  | brokenString _ | broken _ => true
  | _ => false

end Token

def tokens : List Char → List Token
  | [] => []
  | c :: cs =>
    if Token.isBlank c then tokens cs
    else
      let (t, n) := Token.scan c cs
      if t.isBroken then [t] else t :: tokens (cs.drop n)
termination_by cs => cs.length
decreasing_by all_goals simp only [List.length_drop, List.length_cons]; omega

end SnippetEval.Json
