import LootFilter.Decimal.Binary64

/-!
# Shortest decimals

Every finite double is identified by the reals that round to it. Among the decimals in that interval
the shortest is taken, of two equally short ones the closer, and of two equally close ones the
larger. The text of a double writes it positionally, whatever its size, without a trailing point.
-/

namespace LootFilter.Decimal

/-- The number `digits * 10 ^ exponent`. -/
structure Numeral where
  digits : Nat
  exponent : Int
deriving DecidableEq, Repr

/-- The order of `a * 10 ^ i` and `n * 2 ^ j`. -/
def compareScaled (a : Nat) (i : Int) (n : Nat) (j : Int) : Ordering :=
  compare (a * Nat.pow 10 i.toNat * Nat.pow 2 (-j).toNat)
    (n * Nat.pow 2 j.toNat * Nat.pow 10 (-i).toNat)

/-- Whether a decimal lies among the reals that round to the double: from halfway to the neighbour
below to halfway to the neighbour above, both ends included exactly if the mantissa is even. -/
def Magnitude.readsBack (x : Magnitude) (d : Numeral) : Bool :=
  let low := if x.narrowBelow then 4 * x.mantissa - 1 else 4 * x.mantissa - 2
  let high := 4 * x.mantissa + 2
  let ends := x.mantissa % 2 == 0
  let aboveLow := compareScaled d.digits d.exponent low (x.exponent - 2)
  let belowHigh := compareScaled d.digits d.exponent high (x.exponent - 2)
  (aboveLow == .gt || ends && aboveLow == .eq) && (belowHigh == .lt || ends && belowHigh == .eq)

/-- The least `k` with `x < 10 ^ k`, for a positive `x`. -/
def Magnitude.scale (x : Magnitude) : Int :=
  let estimate := Int.fdiv ((x.mantissa.log2 + x.exponent) * 30103) 100000
  if compareScaled 1 estimate x.mantissa x.exponent == .gt then estimate
  else if compareScaled 1 (estimate + 1) x.mantissa x.exponent == .gt then estimate + 1
  else estimate + 2

/-- The multiple of `10 ^ exponent` that reads back, if one of the two around the value does. -/
def Magnitude.onGrid (x : Magnitude) (exponent : Int) : Option Numeral :=
  let value := x.mantissa * Nat.pow 2 x.exponent.toNat * Nat.pow 10 (-exponent).toNat
  let unit := Nat.pow 2 (-x.exponent).toNat * Nat.pow 10 exponent.toNat
  let below : Numeral := ⟨value / unit, exponent⟩
  let above : Numeral := ⟨value / unit + 1, exponent⟩
  match x.readsBack below, x.readsBack above with
  | true, true => some (if 2 * value < (2 * (value / unit) + 1) * unit then below else above)
  | true, false => some below
  | false, true => some above
  | false, false => none

def Magnitude.exact (x : Magnitude) : Numeral :=
  ⟨x.mantissa * Nat.pow 2 x.exponent.toNat * Nat.pow 5 (-x.exponent).toNat, min x.exponent 0⟩

/-- The shortest decimal that reads back as a positive `x`. Seventeen digits are always enough. -/
def Magnitude.shortest (x : Magnitude) : Numeral :=
  let found := (List.range' 1 17).findSome? fun (count : Nat) =>
    (x.onGrid (x.scale - count)).map fun d =>
      -- The neighbour above may have one digit more, and is then a power of ten.
      if d.digits = Nat.pow 10 count then ⟨1, d.exponent + count⟩ else d
  found.getD x.exact

def Numeral.positional (d : Numeral) : List Char :=
  let digits := Nat.toDigits 10 d.digits
  let places := (-d.exponent).toNat
  if places = 0 then digits ++ List.replicate d.exponent.toNat '0'
  else
    let padded := List.replicate (places + 1 - digits.length) '0' ++ digits
    padded.take (padded.length - places) ++ '.' :: padded.drop (padded.length - places)

def text (x : Float) : String :=
  if x.isNaN then "NaN"
  else
    let size :=
      if x.isInf then "inf".toList
      else if x == 0.0 then ['0']
      else (Magnitude.ofFloat x).shortest.positional
    String.ofList (if isNegative x then '-' :: size else size)

/-- The double nearest to a numeral, ties to the even mantissa. -/
def Numeral.toFloat (d : Numeral) : Float :=
  -- Beyond these sizes the answer is certain, and the powers of ten need not be computed.
  let size : Int := (Nat.toDigits 10 d.digits).length + d.exponent
  if d.digits = 0 || size < -400 then 0.0
  else if 400 < size then 1.0 / 0.0
  else Float.ofScientific d.digits (decide (d.exponent < 0)) d.exponent.natAbs

end LootFilter.Decimal
