/-!
# Numbers of stat sums

Stat sums are whole numbers of 64 bits, or doubles once weights come in. What summing needs of a
number is little, so that the same sums can also be taken over exact numbers.
-/

namespace LootFilter

class StatNumber (N : Type) where
  zero : N
  ofInt64 : Int64 → N
  add : N → N → N
  mul : N → N → N

instance : StatNumber Int64 := ⟨0, id, (· + ·), (· * ·)⟩

instance : StatNumber Float := ⟨0.0, Int64.toFloat, (· + ·), (· * ·)⟩

instance : StatNumber Int := ⟨0, Int64.toInt, (· + ·), (· * ·)⟩

end LootFilter
