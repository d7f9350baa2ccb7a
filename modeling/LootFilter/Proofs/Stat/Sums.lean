import LootFilter.Stat.Partition
import Mathlib.Algebra.BigOperators.Group.List.Basic
import Mathlib.Algebra.Ring.Int.Defs
import Mathlib.Data.List.Nodup
import Mathlib.Data.List.Perm.Basic

/-!
# Stat sums

What a sum of modifiers has for a stat is the sum of the values that the modifiers contribute to
it, in whatever order they come. The stat is in the sum if there is such a value, be the sum zero or
not.
-/

namespace LootFilter

namespace StatTable

variable {N : Type} {t u : StatTable N} {key k : String} {value : N}

theorem lookup_cons_if (key k : String) (value : N) (entries : List (String × N)) :
    ((k, value) :: entries).lookup key = if key = k then some value else entries.lookup key := by
  by_cases same : key = k
  · rw [if_pos same, same, List.lookup_cons_self]
  · rw [if_neg same, List.lookup_cons, beq_false_of_ne same]

theorem lookup_changeEntries (key k : String) (f : Option N → N) (entries : List (String × N)) :
    (changeEntries key f entries).lookup k =
      if k = key then some (f (entries.lookup key)) else entries.lookup k := by
  induction entries with
  | nil => rw [changeEntries, lookup_cons_if, List.lookup_nil, List.lookup_nil]
  | cons entry entries ih =>
    obtain ⟨other, v⟩ := entry
    rw [changeEntries, lookup_cons_if, lookup_cons_if]
    by_cases found : other = key
    · rw [if_pos found, if_pos found.symm, lookup_cons_if, found]
      split <;> rfl
    · rw [if_neg found, if_neg (Ne.symm found), lookup_cons_if, ih]
      by_cases same : k = key
      · rw [if_pos same, if_pos same, if_neg (same ▸ Ne.symm found)]
      · rw [if_neg same, if_neg same]

theorem mem_entries : (key, value) ∈ t.entries ↔ t.get? key = some value := by
  obtain ⟨entries, nodup⟩ := t
  rw [get?]
  dsimp only
  induction entries with
  | nil => simp
  | cons entry entries ih =>
    obtain ⟨k, v⟩ := entry
    obtain ⟨fresh, others⟩ := List.nodup_cons.1 nodup
    rw [List.mem_cons, lookup_cons_if, ih others, Prod.mk.injEq]
    by_cases same : key = k
    · subst same
      have absent : entries.lookup key ≠ some value := fun found =>
        fresh (List.mem_map.2 ⟨_, (ih others).2 found, rfl⟩)
      simp [absent, eq_comm]
    · simp [same]

/-- Two tables with the same values have the same entries. -/
theorem entries_perm (same : ∀ key, t.get? key = u.get? key) : t.entries.Perm u.entries := by
  have distinct (t : StatTable N) : t.entries.Nodup := .of_map _ t.nodup
  refine (List.perm_ext_iff_of_nodup (distinct t) (distinct u)).2 ?_
  rintro ⟨key, value⟩
  rw [mem_entries, mem_entries, same]

theorem get?_add [StatNumber N] : (t.add key value).get? k =
    if k = key then some (StatNumber.add (t.get key) value) else t.get? k :=
  lookup_changeEntries key k _ t.entries

theorem contains_add [StatNumber N] :
    (t.add key value).contains k = (key == k || t.contains k) := by
  rw [contains, get?_add]
  by_cases same : k = key
  · rw [if_pos same, same, beq_self_eq_true]
    rfl
  · rw [if_neg same, beq_false_of_ne (Ne.symm same)]
    rfl

theorem get_add [StatNumber N] : (t.add key value).get k =
    if key = k then StatNumber.add (t.get k) value else t.get k := by
  rw [get, get?_add]
  by_cases same : k = key
  · rw [if_pos same, if_pos same.symm, same]
    rfl
  · rw [if_neg same, if_neg (Ne.symm same)]
    rfl

theorem get?_eq [StatNumber N] (t : StatTable N) (key : String) :
    t.get? key = if t.contains key then some (t.get key) else none := by
  rw [contains, get]
  cases t.get? key <;> rfl

/-! ## Contributions -/

/-- The values that are contributed to a key. -/
def valuesOf (key : String) (cs : List (String × N)) : List N :=
  (cs.filter (·.1 = key)).map Prod.snd

theorem valuesOf_cons (c : String × N) (cs : List (String × N)) :
    valuesOf key (c :: cs) = if c.1 = key then c.2 :: valuesOf key cs else valuesOf key cs := by
  by_cases same : c.1 = key
  · rw [if_pos same, valuesOf, List.filter_cons, if_pos (decide_eq_true same), List.map_cons,
      valuesOf]
  · rw [if_neg same, valuesOf, List.filter_cons, if_neg (by simpa using same), valuesOf]

theorem valuesOf_append (cs ds : List (String × N)) :
    valuesOf key (cs ++ ds) = valuesOf key cs ++ valuesOf key ds := by
  rw [valuesOf, List.filter_append, List.map_append, valuesOf, valuesOf]

theorem contains_foldl [StatNumber N] (cs : List (String × N)) (t : StatTable N) :
    (cs.foldl (fun t c => t.add c.1 c.2) t).contains key ↔
      t.contains key ∨ ∃ value, (key, value) ∈ cs := by
  induction cs generalizing t with
  | nil => simp
  | cons c cs ih =>
    obtain ⟨k, v⟩ := c
    rw [List.foldl_cons, ih, contains_add, Bool.or_eq_true, beq_iff_eq]
    simp only [List.mem_cons, Prod.mk.injEq, exists_or, exists_and_left, exists_eq, and_true]
    rw [or_comm (a := k = key), or_assoc, eq_comm (a := k)]

theorem get_foldl [StatNumber N] (cs : List (String × N)) (t : StatTable N) :
    (cs.foldl (fun t c => t.add c.1 c.2) t).get key =
      (valuesOf key cs).foldl StatNumber.add (t.get key) := by
  induction cs generalizing t with
  | nil => rfl
  | cons c cs ih =>
    rw [List.foldl_cons, ih, get_add, valuesOf_cons]
    by_cases same : c.1 = key
    · rw [if_pos same, if_pos same, List.foldl_cons]
    · rw [if_neg same, if_neg same]

theorem get_ofContributions [StatNumber N] (cs : List (String × N)) :
    (ofContributions cs).get key = (valuesOf key cs).foldl StatNumber.add StatNumber.zero :=
  get_foldl cs empty

theorem contains_ofContributions [StatNumber N] (cs : List (String × N)) :
    (ofContributions cs).contains key ↔ ∃ value, (key, value) ∈ cs := by
  have fresh : (empty (N := N)).contains key = false := rfl
  rw [ofContributions, contains_foldl, fresh]
  simp only [Bool.false_eq_true, false_or]

end StatTable

namespace Modifier

variable {ms ms' others : List Modifier} {key : String}

/-- The exact sum of all that the modifiers contribute to a stat. -/
def total (ms : List Modifier) (key : String) : Int :=
  ((StatTable.valuesOf key (ms.flatMap stats)).map Int64.toInt).sum

theorem sum_eq (ms : List Modifier) : sum ms = .ofContributions (ms.flatMap stats) := by
  have plain (m : Modifier) : m.contributions (1 : Int64) = m.stats := by
    have unscaled (c : String × Int64) : (c.1, c.2 * 1) = c := by rw [Int64.mul_one]
    exact (List.map_congr_left fun c _ => unscaled c).trans (List.map_id _)
  rw [sum, weightedSum, List.flatMap_map]
  simp only [plain]

theorem foldl_add_int64 (values : List Int64) (n : Int64) :
    values.foldl StatNumber.add n = n + .ofInt (values.map Int64.toInt).sum := by
  induction values generalizing n with
  | nil => exact (Int64.add_zero n).symm
  | cons value values ih =>
    rw [List.foldl_cons, ih, List.map_cons, List.sum_cons, Int64.ofInt_add, Int64.ofInt_toInt,
      ← Int64.add_assoc]
    rfl

theorem get_sum (ms : List Modifier) (key : String) : (sum ms).get key = .ofInt (total ms key) := by
  rw [sum_eq, StatTable.get_ofContributions, foldl_add_int64]
  exact Int64.zero_add _

theorem contains_sum :
    (sum ms).contains key ↔ ∃ value, (key, value) ∈ ms.flatMap stats := by
  rw [sum_eq, StatTable.contains_ofContributions]

/-- Whether the exact sum of what the modifiers contribute to a stat is a number of 64 bits. -/
def Fits (ms : List Modifier) (key : String) : Prop :=
  -2 ^ 63 ≤ total ms key ∧ total ms key < 2 ^ 63

theorem Fits.toInt_get (fits : Fits ms key) : ((sum ms).get key).toInt = total ms key := by
  rw [get_sum, Int64.toInt_ofInt_of_le fits.1 fits.2]

theorem get?_sum (ms : List Modifier) (key : String) : (sum ms).get? key =
    if (sum ms).contains key then some (.ofInt (total ms key)) else none := by
  rw [StatTable.get?_eq, get_sum]

theorem total_append (ms others : List Modifier) (key : String) :
    total (ms ++ others) key = total ms key + total others key := by
  simp [total, StatTable.valuesOf]

theorem get_append (ms others : List Modifier) (key : String) :
    (sum (ms ++ others)).get key = (sum ms).get key + (sum others).get key := by
  rw [get_sum, get_sum, get_sum, total_append, Int64.ofInt_add]

theorem contains_append (ms others : List Modifier) (key : String) :
    (sum (ms ++ others)).contains key = ((sum ms).contains key || (sum others).contains key) := by
  rw [Bool.eq_iff_iff, Bool.or_eq_true, contains_sum, contains_sum, contains_sum]
  simp only [List.flatMap_append, List.mem_append, exists_or]

/-! ## Order -/

/-- The same modifiers in another order, and with their contributions in another order. -/
def Rearranged (ms ms' : List Modifier) : Prop :=
  ∃ between, ms.Perm between ∧ List.Forall₂ (fun m m' => m.stats.Perm m'.stats) between ms'

theorem Rearranged.stats (h : Rearranged ms ms') :
    (ms.flatMap stats).Perm (ms'.flatMap stats) := by
  obtain ⟨between, moved, inside⟩ := h
  refine (moved.flatMap_right _).trans ?_
  clear moved
  induction inside with
  | nil => exact .nil
  | cons same _ ih => exact same.append ih

theorem total_of_perm (same : (ms.flatMap stats).Perm (ms'.flatMap stats)) (key : String) :
    total ms key = total ms' key :=
  (((same.filter _).map Prod.snd).map Int64.toInt).sum_eq

/-- The order in which modifiers contribute shows nowhere in their sum. -/
theorem get?_of_perm (same : (ms.flatMap stats).Perm (ms'.flatMap stats)) (key : String) :
    (sum ms).get? key = (sum ms').get? key := by
  have listed : (sum ms).contains key = (sum ms').contains key := by
    rw [Bool.eq_iff_iff, contains_sum, contains_sum]
    simp only [same.mem_iff]
  rw [get?_sum, get?_sum, listed, total_of_perm same]

end Modifier

end LootFilter
