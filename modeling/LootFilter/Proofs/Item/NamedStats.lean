import LootFilter.Proofs.Item.Named
import LootFilter.Proofs.Stat.Sums
import Mathlib.Data.List.Dedup

/-!
# Stats of named modifiers

The stats of the modifiers with some names are the sum of the first modifier of each name. It does
not matter how often a name is given, or in which order or letter case the names are.
-/

namespace LootFilter

namespace Item

open Text (lower lower_toLower)
open Modifier (Fits total)

variable {it : Item} {wanted wanted' names others seen : List String} {ms : List Modifier}
  {m : Modifier} {name key : String}

/-! ## The first modifier of a name -/

/-- The first modifier whose name has the lower case `name`. -/
def firstOf? (ms : List Modifier) (name : String) : Option Modifier :=
  ms.find? fun m => lower m.name = name

def modifierNamed? (it : Item) (name : String) : Option Modifier := firstOf? it.modifiers name

theorem lower_of_firstOf? (h : firstOf? ms name = some m) : lower m.name = name := by
  simpa using List.find?_some h

theorem firstOf?_cons (other : Modifier) : firstOf? (other :: ms) name =
    if lower other.name = name then some other else firstOf? ms name := by
  rw [firstOf?, List.find?_cons]
  by_cases same : lower other.name = name
  · rw [if_pos same, decide_eq_true same]
  · rw [if_neg same, decide_eq_false same]
    rfl

theorem mem_firstNamed_iff : m ∈ firstNamed wanted seen ms ↔
    lower m.name ∈ wanted ∧ lower m.name ∉ seen ∧ firstOf? ms (lower m.name) = some m := by
  induction ms generalizing seen with
  | nil => simp [firstNamed, firstOf?]
  | cons other ms ih =>
    rw [firstNamed_cons, firstOf?_cons]
    by_cases same : lower other.name = lower m.name
    · -- Later modifiers of the name are not the first one, and their name has been seen.
      rw [if_pos same, Option.some.injEq, same]
      split
      · rename_i hit
        rw [List.mem_cons, ih, eq_comm]
        simp [hit]
      · rename_i missed
        have neither (p : Prop) : ¬(lower m.name ∈ wanted ∧ lower m.name ∉ seen ∧ p) :=
          fun asked => missed ⟨asked.1, asked.2.1⟩
        rw [ih]
        exact iff_of_false (neither _) (neither _)
    · rw [if_neg same]
      have distinct : m ≠ other := fun h => same (h ▸ rfl)
      split
      · rw [List.mem_cons, ih, List.mem_cons, not_or]
        simp only [distinct, false_or, Ne.symm same, not_false_eq_true, true_and]
      · exact ih

theorem firstNamed_nodup : (firstNamed wanted seen ms).Nodup := nodup_firstNamed.of_map

/-- Which modifiers are the first ones does not depend on how their names are listed. -/
theorem firstNamed_congr (same : ∀ name, name ∈ wanted ↔ name ∈ wanted') :
    firstNamed wanted seen ms = firstNamed wanted' seen ms := by
  induction ms generalizing seen with
  | nil => rfl
  | cons m ms ih => simp only [firstNamed_cons, ih, same]

theorem firstNamed_perm :
    (firstNamed wanted [] ms).Perm (wanted.dedup.filterMap (firstOf? ms)) := by
  have injective (name name' : String) (m : Modifier) (found : firstOf? ms name = some m)
      (found' : firstOf? ms name' = some m) : name = name' :=
    (lower_of_firstOf? found).symm.trans (lower_of_firstOf? found')
  refine (List.perm_ext_iff_of_nodup firstNamed_nodup
    ((List.nodup_dedup wanted).filterMap injective)).2 fun m => ?_
  rw [mem_firstNamed_iff, List.mem_filterMap]
  constructor
  · rintro ⟨asked, -, found⟩
    exact ⟨_, List.mem_dedup.2 asked, found⟩
  · rintro ⟨name, asked, found⟩
    obtain rfl := lower_of_firstOf? found
    exact ⟨List.mem_dedup.1 asked, List.not_mem_nil, found⟩

theorem firstNamed_append (apart : ∀ name ∈ wanted, name ∉ wanted') :
    (firstNamed (wanted ++ wanted') [] ms).Perm
      (firstNamed wanted [] ms ++ firstNamed wanted' [] ms) := by
  have disjoint : (firstNamed wanted [] ms).Disjoint (firstNamed wanted' [] ms) :=
    fun m left right => apart _ (mem_firstNamed_iff.1 left).1 (mem_firstNamed_iff.1 right).1
  refine (List.perm_ext_iff_of_nodup firstNamed_nodup
    (firstNamed_nodup.append firstNamed_nodup disjoint)).2 fun m => ?_
  rw [List.mem_append, mem_firstNamed_iff, mem_firstNamed_iff, mem_firstNamed_iff, List.mem_append,
    or_and_right]

theorem firstNamed_all (listed : ∀ m ∈ ms, lower m.name ∈ wanted)
    (fresh : ∀ name ∈ lowerNames ms, name ∉ seen) (distinct : (lowerNames ms).Nodup) :
    firstNamed wanted seen ms = ms := by
  induction ms generalizing seen with
  | nil => rfl
  | cons m ms ih =>
    obtain ⟨first, others⟩ := List.forall_mem_cons.1 listed
    obtain ⟨unseen, further⟩ := List.forall_mem_cons.1 fresh
    obtain ⟨alone, distinct⟩ := List.nodup_cons.1 distinct
    rw [firstNamed_cons, if_pos ⟨first, unseen⟩, ih others ?_ distinct]
    intro name mem again
    rcases List.mem_cons.1 again with rfl | earlier
    · exact alone mem
    · exact further name mem earlier

/-! ## Their stats -/

/-- The first modifiers of the names, each name taken once. -/
def firstModifiers (it : Item) (names : List String) : List Modifier :=
  (names.map lower).dedup.filterMap it.modifierNamed?

theorem modifiersNamed_perm : (it.modifiersNamed names).Perm (it.firstModifiers names) :=
  firstNamed_perm

theorem get?_namedStats :
    (it.namedStats names).get? key = (Modifier.sum (it.firstModifiers names)).get? key :=
  Modifier.get?_of_perm (modifiersNamed_perm.flatMap_right _) key

theorem namedStats_congr (same : ∀ name, name ∈ wanted.map lower ↔ name ∈ wanted'.map lower) :
    it.namedStats wanted = it.namedStats wanted' := by
  rw [namedStats, modifiersNamed, firstNamed_congr same]
  rfl

theorem modifiersNamed_append (apart : ∀ name ∈ names.map lower, name ∉ others.map lower) :
    (it.modifiersNamed (names ++ others)).Perm
      (it.modifiersNamed names ++ it.modifiersNamed others) := by
  rw [modifiersNamed, List.map_append]
  exact firstNamed_append apart

theorem get_namedStats_append (apart : ∀ name ∈ names.map lower, name ∉ others.map lower)
    (key : String) : (it.namedStats (names ++ others)).get key =
      (it.namedStats names).get key + (it.namedStats others).get key := by
  rw [namedStats, namedStats, namedStats, ← Modifier.get_append, StatTable.get, StatTable.get,
    Modifier.get?_of_perm ((modifiersNamed_append apart).flatMap_right _)]

theorem toInt_get_namedStats (fits : Fits (it.firstModifiers names) key) :
    ((it.namedStats names).get key).toInt = total (it.firstModifiers names) key := by
  rw [StatTable.get, get?_namedStats]
  exact fits.toInt_get

theorem total_firstModifiers_append (apart : ∀ name ∈ names.map lower, name ∉ others.map lower)
    (key : String) : total (it.firstModifiers (names ++ others)) key =
      total (it.firstModifiers names) key + total (it.firstModifiers others) key := by
  have first (names : List String) : ((it.modifiersNamed names).flatMap Modifier.stats).Perm
      ((it.firstModifiers names).flatMap Modifier.stats) := modifiersNamed_perm.flatMap_right _
  rw [← Modifier.total_of_perm (first _), ← Modifier.total_of_perm (first _),
    ← Modifier.total_of_perm (first _), ← Modifier.total_append]
  exact Modifier.total_of_perm ((modifiersNamed_append apart).flatMap_right _) key

/-- How the stats of the modifiers with some names depend on the names. -/
structure NamedStatsLaws (it : Item) (names : List String) : Prop where
  /-- The sum of what the first modifier of each name contributes, if it does not overflow. -/
  meaning : ∀ key, Fits (it.firstModifiers names) key →
    ((it.namedStats names).get key).toInt = total (it.firstModifiers names) key
  contains : ∀ key, (it.namedStats names).contains key ↔ ∃ name ∈ names.map lower,
    ∃ m, it.modifierNamed? name = some m ∧ ∃ value, (key, value) ∈ m.stats
  /-- The order in which names are given does not matter, nor how often they are. -/
  listing : ∀ names' : List String, (∀ name, name ∈ names' ↔ name ∈ names) →
    it.namedStats names' = it.namedStats names
  /-- The letter case of ASCII letters does not matter. -/
  letters : ∀ names' : List String, names'.map String.toLower = names.map String.toLower →
    it.namedStats names' = it.namedStats names
  /-- Lists without a common name add up, even if sums overflow. -/
  additive : ∀ others : List String, (∀ name ∈ names.map lower, name ∉ others.map lower) →
    ∀ key, (it.namedStats (names ++ others)).get key =
      (it.namedStats names).get key + (it.namedStats others).get key
  /-- They add up as numbers if no sum overflows. -/
  exact : ∀ others : List String, (∀ name ∈ names.map lower, name ∉ others.map lower) →
    ∀ key, Fits (it.firstModifiers names) key → Fits (it.firstModifiers others) key →
      Fits (it.firstModifiers (names ++ others)) key →
        ((it.namedStats (names ++ others)).get key).toInt =
          ((it.namedStats names).get key).toInt + ((it.namedStats others).get key).toInt
  /-- If all modifiers are named and have different names, their stats are those of the item. -/
  all : (∀ m ∈ it.modifiers, lower m.name ∈ names.map lower) → (lowerNames it.modifiers).Nodup →
    it.namedStats names = it.stats

theorem namedStats_laws (it : Item) (names : List String) : it.NamedStatsLaws names where
  meaning _ := toInt_get_namedStats
  contains key := by
    rw [StatTable.contains, get?_namedStats, ← StatTable.contains, Modifier.contains_sum]
    simp only [firstModifiers, List.mem_flatMap, List.mem_filterMap, List.mem_dedup]
    constructor
    · rintro ⟨value, m, ⟨name, asked, found⟩, contributes⟩
      exact ⟨name, asked, m, found, value, contributes⟩
    · rintro ⟨name, asked, m, found, value, contributes⟩
      exact ⟨value, m, ⟨name, asked, found⟩, contributes⟩
  listing names' same := namedStats_congr fun name => by simp only [List.mem_map, same]
  letters names' same := by
    rw [namedStats, modifiersNamed, map_lower, same, ← map_lower]
    rfl
  additive others apart key := get_namedStats_append apart key
  exact others apart key fits fits' fits'' := by
    rw [toInt_get_namedStats fits, toInt_get_namedStats fits', toInt_get_namedStats fits'',
      total_firstModifiers_append apart]
  all listed distinct := by
    rw [namedStats, modifiersNamed, firstNamed_all listed (fun _ _ => List.not_mem_nil) distinct]
    rfl

end Item

end LootFilter
