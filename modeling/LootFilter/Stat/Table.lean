import LootFilter.Stat.Number

/-!
# Stat tables

A table of stat values by key. Reading never fails: a key that nothing was added to reads as zero.
-/

namespace LootFilter

structure StatTable (N : Type) where
  entries : List (String × N)
  nodup : (entries.map Prod.fst).Nodup

namespace StatTable

variable {N : Type}

def empty : StatTable N := ⟨[], List.nodup_nil⟩

instance : Inhabited (StatTable N) := ⟨empty⟩

def size (t : StatTable N) : Nat := t.entries.length

def isEmpty (t : StatTable N) : Bool := t.entries.isEmpty

def get? (t : StatTable N) (key : String) : Option N := t.entries.lookup key

/-- Whether anything was added to `key`, be the sum zero or not. -/
def contains (t : StatTable N) (key : String) : Bool := (t.get? key).isSome

def get [StatNumber N] (t : StatTable N) (key : String) : N := (t.get? key).getD StatNumber.zero

/-- Entries in which the value of `key` is what `change` makes of it; a new key comes last. -/
def changeEntries (key : String) (change : Option N → N) : List (String × N) → List (String × N)
  | [] => [(key, change none)]
  | (k, v) :: rest =>
    if k = key then (k, change (some v)) :: rest else (k, v) :: changeEntries key change rest

theorem fst_mem_changeEntries {key k : String} {change : Option N → N} {es : List (String × N)}
    (h : k ∈ (changeEntries key change es).map Prod.fst) : k = key ∨ k ∈ es.map Prod.fst := by
  induction es with
  | nil => exact .inl (by simpa [changeEntries] using h)
  | cons e es ih =>
    simp only [changeEntries] at h
    split at h
    · exact .inr (by simpa using h)
    · rcases List.mem_cons.1 h with h | h
      · exact .inr (by simp [h])
      · exact (ih h).imp id (List.mem_cons_of_mem _)

theorem nodup_changeEntries (key : String) (change : Option N → N) {es : List (String × N)}
    (h : (es.map Prod.fst).Nodup) : ((changeEntries key change es).map Prod.fst).Nodup := by
  induction es with
  | nil => simp [changeEntries]
  | cons e es ih =>
    obtain ⟨fresh, rest⟩ := List.nodup_cons.1 h
    simp only [changeEntries]
    split
    · exact h
    · rename_i other
      refine List.nodup_cons.2 ⟨fun mem => ?_, ih rest⟩
      rcases fst_mem_changeEntries mem with same | mem
      · exact other same
      · exact fresh mem

def change (t : StatTable N) (key : String) (f : Option N → N) : StatTable N :=
  ⟨changeEntries key f t.entries, nodup_changeEntries key f t.nodup⟩

def insert (t : StatTable N) (key : String) (value : N) : StatTable N := t.change key fun _ => value

def add [StatNumber N] (t : StatTable N) (key : String) (value : N) : StatTable N :=
  t.change key fun old => StatNumber.add (old.getD StatNumber.zero) value

def ofContributions [StatNumber N] (cs : List (String × N)) : StatTable N :=
  cs.foldl (fun t c => t.add c.1 c.2) empty

end StatTable

end LootFilter
