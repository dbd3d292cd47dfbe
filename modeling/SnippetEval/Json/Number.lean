import SnippetEval.Json.Problem
import SnippetEval.Decimal.Reading
/-!
Numbers of a JSON text. An integer of at most 64 bits is exact. Any other number keeps as many
leading digits as 64 bits hold, turns them into a double and multiplies or divides that by a power
of ten, so its last bits may differ from the closest double; one that is too large is no number.
-/

namespace SnippetEval.Json

inductive Number
  | integer (value : Int)
  | float (value : Float)

namespace Number

structure Parts where
  negative : Bool
  whole : List Char
  fraction : Option (List Char)
  exponent : Option (Bool × List Char)

def capacity : Nat := UInt64.size

def fill (n : Nat) : List Char → Nat × List Char
  | [] => (n, [])
  | c :: cs =>
    let m := 10 * n + Decimal.digitValue c
    if m < capacity then fill m cs else (n, c :: cs)

def toFloat (n : Nat) : Float := (UInt64.ofNat n).toFloat

def powerOfTen (n : Nat) : Float := Decimal.ofParts false 1 n

def divide (x : Float) (n : Nat) : Float :=
  if n ≤ 308 then x / powerOfTen n
  else if x == 0.0 then x
  else divide (x / powerOfTen 308) (n - 308)
termination_by n

def multiply (x : Float) (n : Nat) : Option Float :=
  if n ≤ 308 then
    let y := x * powerOfTen n
    if y.isInf then none else some y
  else if x == 0.0 then some x
  else none

def exponentLimit : Nat := 1 <<< 31

def scaled (negative : Bool) (significand : Nat) (shift : Int) (exponent : Bool × List Char) :
    Option Float :=
  let (down, digits) := exponent
  let e := Decimal.natOfDigits digits
  let magnitude :=
    if exponentLimit ≤ e then if significand ≠ 0 ∧ !down then none else some 0.0
    else
      let total := shift + if down then -(e : Int) else e
      let x := toFloat significand
      if 0 ≤ total then multiply x total.toNat else some (divide x (-total).toNat)
  magnitude.map fun x => if negative then -x else x

def Parts.value? (p : Parts) : Option Number :=
  let (significand, left) := fill 0 p.whole
  match p.fraction, p.exponent, left with
  | none, none, [] =>
    if !p.negative then some (.integer significand)
    else if significand = 0 ∨ 1 <<< 63 < significand then some (.float (-toFloat significand))
    else some (.integer (-significand))
  | fraction, exponent, _ =>
    let places := fraction.getD []
    let (significand, unused) := fill significand places
    let shift : Int := (left.length : Int) - (places.length - unused.length)
    (scaled p.negative significand shift (exponent.getD (false, []))).map .float

end Number

end SnippetEval.Json
