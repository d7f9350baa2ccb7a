import LootFilter.Decimal.Digits
import LootFilter.Decimal.Shortest
import LootFilter.Text.Letter

/-!
# Reading doubles

A double is written as digits with an optional point, sign and exponent, or as an infinity or as
NaN, in any letter case.
-/

namespace LootFilter.Decimal

open Text (isDigit)

def signedDigits? (cs : List Char) : Option Int :=
  let value (ds : List Char) : Option Nat :=
    if ds.isEmpty || !ds.all isDigit then none else some (digitsValue ds)
  match cs with
  | '-' :: ds => (value ds).map fun n => -n
  | '+' :: ds => (value ds).map fun n => n
  | ds => (value ds).map fun n => n

def numeral? (cs : List Char) : Option Numeral :=
  let whole := cs.takeWhile isDigit
  let rest := cs.dropWhile isDigit
  let (fraction, rest) := match rest with
    | '.' :: rest => (rest.takeWhile isDigit, rest.dropWhile isDigit)
    | rest => ([], rest)
  let power? : Option Int := match rest with
    | [] => some 0
    | c :: ds => if c = 'e' ∨ c = 'E' then signedDigits? ds else none
  if (whole ++ fraction).isEmpty then none
  else power?.map fun power =>
    ⟨digitsValue (whole ++ fraction), power - fraction.length⟩

def size? (cs : List Char) : Option Float :=
  match String.ofList (cs.map Char.toLower) with
  | "inf" | "infinity" => some (1.0 / 0.0)
  | "nan" => some (0.0 / 0.0)
  | _ => (numeral? cs).map Numeral.toFloat

/-- The double that a text stands for, rounded to the nearest one. -/
def ofText? (s : String) : Option Float :=
  match s.toList with
  | '-' :: cs => (size? cs).map fun x => -x
  | '+' :: cs => size? cs
  | cs => size? cs

end LootFilter.Decimal
