/-!
Doubles as exact numbers. A finite double is a sign and `significand * 2 ^ exponent`; `nearest`
rounds any quotient of naturals to the closest double, ties to even, and `remainder` needs no
rounding at all.
-/

namespace SnippetEval

inductive Binary64
  | nan
  | infinite (negative : Bool)
  | finite (negative : Bool) (significand : Nat) (exponent : Int)
  deriving DecidableEq, Repr

namespace Binary64

def signBit : Nat := 1 <<< 63

def leadingBit : Nat := 1 <<< 52

def infinityBits : Nat := 2047 <<< 52

def ofFloat (x : Float) : Binary64 :=
  let bits := x.toBits.toNat
  let negative := bits >>> 63 = 1
  let biased : Nat := bits >>> 52 % 2048
  let fraction := bits % leadingBit
  if biased = 2047 then
    if fraction = 0 then .infinite negative else .nan
  else if biased = 0 then .finite negative fraction (-1074)
  else .finite negative (leadingBit + fraction) ((biased : Int) - 1075)

def scale (n : Nat) (e : Int) : Nat × Nat := (n <<< e.toNat, 1 <<< (-e).toNat)

def exponentOf (num den : Nat) : Int :=
  let e : Int := (num.log2 : Int) - den.log2
  if den <<< e.toNat ≤ num <<< (-e).toNat then e else e - 1

def roundEven (num den : Nat) : Nat :=
  let q := num / den
  let r := num % den
  if 2 * r < den then q else if den < 2 * r then q + 1 else q + q % 2

/-- The bits, sign apart, of the double closest to `num / den`; too large a quotient is infinite. -/
def nearest (num den : Nat) : Nat :=
  if num = 0 then 0 else
    let q := max (exponentOf num den - 52) (-1074)
    let m := roundEven (num <<< (-q).toNat) (den <<< q.toNat)
    min ((q + 1074).toNat <<< 52 + m) infinityBits

def toFloat : Binary64 → Float
  | nan => 0.0 / 0.0
  | infinite negative => if negative then -1.0 / 0.0 else 1.0 / 0.0
  | finite negative m e =>
    let (num, den) := scale m e
    Float.ofBits (UInt64.ofNat ((if negative then signBit else 0) + nearest num den))

end Binary64

/-- `x - y * trunc (x / y)`, which has the sign of `x` and is always a double itself. -/
def Float.remainder (x y : Float) : Float :=
  match Binary64.ofFloat x, Binary64.ofFloat y with
  | .finite negative m e, .finite _ n f =>
    if n = 0 then 0.0 / 0.0 else
      let q := min e f
      (Binary64.finite negative (m <<< (e - q).toNat % n <<< (f - q).toNat) q).toFloat
  | .finite .., .infinite _ => x
  | _, _ => 0.0 / 0.0

end SnippetEval
