/-!
# Decimal digits

Runs of ASCII digits, read as numbers.
-/

namespace LootFilter.Decimal

def digitsValue (ds : List Char) : Nat := ds.foldl (fun n d => n * 10 + (d.toNat - '0'.toNat)) 0

end LootFilter.Decimal
