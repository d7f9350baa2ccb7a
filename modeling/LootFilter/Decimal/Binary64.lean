/-!
# Doubles as exact numbers

The bits of a finite double as a sign and a magnitude `mantissa * 2 ^ exponent`, and the operations
that are computed exactly on magnitudes: the remainder, and rounding to decimal places.
-/

namespace LootFilter.Decimal

/-- The magnitude `mantissa * 2 ^ exponent` of a finite double. -/
structure Magnitude where
  mantissa : Nat
  exponent : Int
  /-- The gap to the double below is half the gap to the double above. -/
  narrowBelow : Bool
deriving DecidableEq, Repr

def isNegative (x : Float) : Bool := x.toBits >>> 63 == 1

def Magnitude.ofFloat (x : Float) : Magnitude :=
  let biased := ((x.toBits >>> 52) &&& 0x7FF).toNat
  let fraction := (x.toBits &&& 0xFFFFFFFFFFFFF).toNat
  if biased = 0 then ⟨fraction, -1074, false⟩
  else ⟨0x10000000000000 + fraction, biased - 1075, fraction == 0 && decide (1 < biased)⟩

/-- The remainder of dividing `x` by `y` with the quotient cut off toward zero; it has the sign of
`x` and is exact. There is none for an infinite `x` or a `y` that is zero. -/
def remainder (x y : Float) : Float :=
  if x.isNaN || y.isNaN || x.isInf || y == 0.0 then 0.0 / 0.0
  else if y.isInf then x
  else
    let a := Magnitude.ofFloat x
    let b := Magnitude.ofFloat y
    let exponent := min a.exponent b.exponent
    let scaled (v : Magnitude) := v.mantissa * Nat.pow 2 (v.exponent - exponent).toNat
    let rest := (Float.ofNat (scaled a % scaled b)).scaleB exponent
    if isNegative x then -rest else rest

def powNat (base : Float) (n : Nat) : Float :=
  go 1.0 base n
where
  go (product square : Float) (n : Nat) : Float :=
    if h : n = 0 then product
    else
      let next := if n % 2 = 1 then product * square else product
      if n / 2 = 0 then next else go next (square * square) (n / 2)
  termination_by n
  decreasing_by omega

def powInt (base : Float) (n : Int) : Float :=
  if n < 0 then 1.0 / powNat base n.natAbs else powNat base n.natAbs

/-- The value rounded to `places` decimal places, halves away from zero. -/
def roundTo (value : Float) (places : Int) : Float :=
  let factor := powInt 10.0 places
  (value * factor).round / factor

end LootFilter.Decimal
