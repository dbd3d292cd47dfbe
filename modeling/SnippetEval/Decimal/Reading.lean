import SnippetEval.Decimal.Binary64

namespace SnippetEval.Decimal

def digitValue (c : Char) : Nat := c.toNat - '0'.toNat

def natOfDigits (ds : List Char) : Nat := ds.foldl (fun n c => 10 * n + digitValue c) 0

/-- Decimals beyond every double's reach are decided by their size, so the powers stay small. -/
def ofParts (negative : Bool) (digits : Nat) (exponent : Int) : Float :=
  let size : Int := (Nat.toDigits 10 digits).length + exponent
  let magnitude :=
    if digits = 0 ∨ size < -400 then 0
    else if 400 < size then Binary64.infinityBits
    else Binary64.nearest (digits * Nat.pow 10 exponent.toNat) (Nat.pow 10 (-exponent).toNat)
  Float.ofBits (UInt64.ofNat ((if negative then Binary64.signBit else 0) + magnitude))

def sign : List Char → Bool × List Char
  | '-' :: cs => (true, cs)
  | '+' :: cs => (false, cs)
  | cs => (false, cs)

def digits (cs : List Char) : List Char × List Char :=
  (cs.takeWhile Char.isDigit, cs.dropWhile Char.isDigit)

def int64? (n : Int) : Option Int64 :=
  if Int64.minValue.toInt ≤ n ∧ n ≤ Int64.maxValue.toInt then some (Int64.ofInt n) else none

theorem int64?_eq_some_iff {n : Int} {m : Int64} : int64? n = some m ↔ m.toInt = n := by
  unfold int64?
  constructor
  · intro h
    split at h
    · next hn =>
      obtain rfl := Option.some.inj h
      exact Int64.toInt_ofInt_of_le hn.1 (Int.lt_of_le_of_lt hn.2 (by decide))
    · cases h
  · rintro rfl
    rw [if_pos ⟨m.minValue_le_toInt, m.toInt_le⟩, Int64.ofInt_toInt]

def readInt (cs : List Char) : Option Int64 :=
  let (negative, ds) := sign cs
  if ds.isEmpty || !ds.all Char.isDigit then none else
    int64? (if negative then -(natOfDigits ds : Int) else natOfDigits ds)

def readNat (bound : Nat) (cs : List Char) : Option Nat :=
  let ds := match cs with
    | '+' :: ds => ds
    | ds => ds
  if ds.isEmpty || !ds.all Char.isDigit then none else
    let n := natOfDigits ds
    if n < bound then some n else none

def readExponent : List Char → Option Int
  | [] => some 0
  | c :: cs =>
    if c = 'e' ∨ c = 'E' then
      let (negative, ds) := sign cs
      if ds.isEmpty || !ds.all Char.isDigit then none
      else some (if negative then -(natOfDigits ds : Int) else natOfDigits ds)
    else none

def readMagnitude (negative : Bool) (cs : List Char) : Option Float :=
  let word := cs.map Char.toLower
  if word = "inf".toList ∨ word = "infinity".toList then some (Binary64.infinite negative).toFloat
  else if word = "nan".toList then some Binary64.nan.toFloat
  else
    let (whole, rest) := digits cs
    let (fraction, rest) := match rest with
      | '.' :: rest => digits rest
      | rest => ([], rest)
    if whole.isEmpty && fraction.isEmpty then none else
      (readExponent rest).map fun e =>
        ofParts negative (natOfDigits (whole ++ fraction)) (e - fraction.length)

def readFloat (cs : List Char) : Option Float :=
  let (negative, cs) := sign cs
  readMagnitude negative cs

end SnippetEval.Decimal
