import SnippetEval.Decimal.Binary64
/-!
The fewest decimal digits that read back as a given double, and how they are laid out. A decimal
`digits * 10 ^ exponent` reads back iff it lies in the interval of numbers that round to the double;
`shortest` takes the coarsest power of ten whose multiples meet that interval, and of its multiples
the one closest to the double.
-/

namespace SnippetEval.Decimal

structure Interval where
  low : Nat
  value : Nat
  high : Nat
  den : Nat
  closed : Bool

def Interval.holds (i : Interval) (n : Nat) : Bool :=
  if i.closed then i.low ≤ n && n ≤ i.high else i.low < n && n < i.high

/-- Where the significand is least, the double below is only half as far away as the one above. -/
def Interval.around (significand : Nat) (exponent : Int) : Interval :=
  let below := if significand = Binary64.leadingBit ∧ -1074 < exponent then 1 else 2
  let up := 1 <<< (exponent - 2).toNat
  { low := (4 * significand - below) * up
    value := 4 * significand * up
    high := (4 * significand + 2) * up
    den := 1 <<< (2 - exponent).toNat
    closed := significand % 2 = 0 }

inductive Tie
  | larger
  | even

def Tie.choose : Tie → Nat → Nat
  | larger, d => d + 1
  | even, d => d + d % 2

def Interval.multiple? (i : Interval) (tie : Tie) (t : Int) : Option Nat :=
  let unit := i.den * Nat.pow 10 t.toNat
  let up := Nat.pow 10 (-t).toNat
  let scaled : Interval := { i with low := i.low * up, value := i.value * up, high := i.high * up }
  let d := scaled.value / unit
  match scaled.holds (d * unit), scaled.holds ((d + 1) * unit) with
  | true, true =>
    let excess := scaled.value - d * unit
    some (if 2 * excess < unit then d else if unit < 2 * excess then d + 1 else tie.choose d)
  | true, false => some d
  | false, true => some (d + 1)
  | false, false => none

def Interval.coarsest (i : Interval) (tie : Tie) : Nat → Int → Nat × Int
  | 0, t => (0, t)
  | n + 1, t =>
    match i.multiple? tie t with
    | some d => (d, t)
    | none => i.coarsest tie n (t - 1)

/-- Digits and exponent of a positive double. Seventeen digits always read back, so the search from
just above the double ends within the grids it is given. -/
def shortest (tie : Tie) (significand : Nat) (exponent : Int) : Nat × Int :=
  let i := Interval.around significand exponent
  let bits : Int := (i.value.log2 : Int) - i.den.log2 + 1
  i.coarsest tie 24 (bits * 30103 / 100000 + 2)

structure Layout where
  plainFrom : Int
  plainTo : Int
  signedExponent : Bool
  tie : Tie

def zeros (n : Nat) : List Char := List.replicate n '0'

def plain (digits : List Char) (exponent : Int) : List Char :=
  if 0 ≤ exponent then digits ++ zeros exponent.toNat ++ ['.', '0']
  else
    let places := (-exponent).toNat
    if places < digits.length then
      digits.take (digits.length - places) ++ '.' :: digits.drop (digits.length - places)
    else '0' :: '.' :: zeros (places - digits.length) ++ digits

def scientific (signed : Bool) (lead : Int) : List Char → List Char
  | [] => []
  | d :: ds =>
    d :: (if ds.isEmpty then [] else '.' :: ds) ++ 'e' ::
      (if signed && 0 ≤ lead then ['+'] else []) ++ (toString lead).toList

def Layout.positive (l : Layout) (significand : Nat) (exponent : Int) : List Char :=
  let (d, t) := shortest l.tie significand exponent
  let digits := Nat.toDigits 10 d
  let lead := t + digits.length - 1
  if l.plainFrom ≤ lead ∧ lead ≤ l.plainTo then plain digits t
  else scientific l.signedExponent lead digits

def Layout.render (l : Layout) (x : Float) : String :=
  match Binary64.ofFloat x with
  | .nan => "NaN"
  | .infinite negative => if negative then "-inf" else "inf"
  | .finite negative m e =>
    let digits := if m = 0 then ['0', '.', '0'] else l.positive m e
    String.ofList (if negative then '-' :: digits else digits)

def valueLayout : Layout := ⟨-4, 15, false, .larger⟩

def descriptionLayout : Layout := ⟨-5, 15, true, .even⟩

end SnippetEval.Decimal
