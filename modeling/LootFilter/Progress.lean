/-!
# Reading with progress

The result of reading from the front of a list: what was read, and what is left of the list. The
proof that something was consumed is what lets loops of readers end. A reading that may consume
nothing of a list of `n` elements has the limit `n + 1`.
-/

namespace LootFilter

/-- A value read from a list, with the rest of the list, which has fewer than `limit` elements. -/
structure Parsed (τ α : Type) (limit : Nat) where
  value : α
  rest : List τ
  shorter : rest.length < limit

namespace Parsed

variable {τ α β : Type} {n : Nat}

def stay (value : α) (rest : List τ) : Parsed τ α (rest.length + 1) :=
  ⟨value, rest, Nat.lt_succ_self _⟩

def span (p : τ → Bool) (xs : List τ) : Parsed τ (List τ) (xs.length + 1) :=
  ⟨xs.takeWhile p, xs.dropWhile p, Nat.lt_succ_of_le (List.dropWhile_suffix p).length_le⟩

def map (f : α → β) (p : Parsed τ α n) : Parsed τ β n := ⟨f p.value, p.rest, p.shorter⟩

def widen (p : Parsed τ α n) : Parsed τ α (n + 1) := ⟨p.value, p.rest, Nat.lt_succ_of_lt p.shorter⟩

/-- The second reading, which starts where the first one ends, as a reading of the whole. -/
def andThen (first : Parsed τ α n) (second : Parsed τ β first.rest.length) : Parsed τ β n :=
  ⟨second.value, second.rest, Nat.lt_trans second.shorter first.shorter⟩

/-- As `andThen`, where the second reading may consume nothing. -/
def andMaybe (first : Parsed τ α n) (second : Parsed τ β (first.rest.length + 1)) :
    Parsed τ β n :=
  ⟨second.value, second.rest, Nat.lt_of_le_of_lt (Nat.le_of_lt_succ second.shorter) first.shorter⟩

/-- As `andThen`, where the first reading may consume nothing. -/
def andSurely (first : Parsed τ α (n + 1)) (second : Parsed τ β first.rest.length) :
    Parsed τ β n :=
  ⟨second.value, second.rest, Nat.lt_of_lt_of_le second.shorter (Nat.le_of_lt_succ first.shorter)⟩

end Parsed

end LootFilter
