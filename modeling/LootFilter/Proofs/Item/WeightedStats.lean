import LootFilter.Item.Lookup
import LootFilter.Proofs.Stat.Sums
import Mathlib.Algebra.BigOperators.Fin
import Mathlib.Algebra.Order.Ring.Rat
import Mathlib.Tactic.Ring

/-!
# Weighted stats

A weighted sum counts every modifier for each place at which its name is given, with the weight of
that place. Rounding aside it is linear in the weights, which is why sums are taken over rational
numbers here.
-/

namespace LootFilter

instance : StatNumber ℚ := ⟨0, fun n => n.toInt, (· + ·), (· * ·)⟩

namespace Modifier

open StatTable (valuesOf)

variable {N : Type} {m : Modifier} {key : String}

/-- What the modifier adds to a stat with the weight. -/
def weighted (m : Modifier) (key : String) (weight : ℚ) : ℚ :=
  ((valuesOf key m.stats).map fun value => weight * value.toInt).sum

theorem weighted_eq (m : Modifier) (key : String) (weight : ℚ) :
    m.weighted key weight = weight * total [m] key := by
  rw [weighted, List.sum_map_mul_left, total, List.flatMap_singleton, Int.cast_list_sum,
    List.map_map]
  rfl

theorem valuesOf_contributions (m : Modifier) (key : String) (weight : ℚ) :
    valuesOf key (m.contributions weight) =
      (valuesOf key m.stats).map fun value => weight * value.toInt := by
  rw [contributions]
  induction m.stats with
  | nil => rfl
  | cons c cs ih =>
    obtain ⟨k, value⟩ := c
    rw [List.map_cons, StatTable.valuesOf_cons, StatTable.valuesOf_cons, ih]
    by_cases same : k = key
    · rw [if_pos same, if_pos same, List.map_cons, mul_comm weight]
      rfl
    · rw [if_neg same, if_neg same]

theorem foldl_add_rat (values : List ℚ) (x : ℚ) :
    values.foldl StatNumber.add x = x + values.sum := by
  induction values generalizing x with
  | nil => exact (add_zero x).symm
  | cons value values ih =>
    rw [List.foldl_cons, ih, List.sum_cons, ← add_assoc]
    rfl

theorem get_weightedSum (ms : List (Modifier × ℚ)) (key : String) :
    (weightedSum ms).get key = (ms.map fun p => p.1.weighted key p.2).sum := by
  rw [weightedSum, StatTable.get_ofContributions, foldl_add_rat]
  refine (zero_add _).trans ?_
  induction ms with
  | nil => rfl
  | cons p ms ih =>
    rw [List.flatMap_cons, StatTable.valuesOf_append, List.sum_append, ih, List.map_cons,
      List.sum_cons, valuesOf_contributions]
    rfl

theorem contains_weightedSum [StatNumber N] (ms : List (Modifier × N)) (key : String) :
    (weightedSum ms).contains key ↔
      ∃ m, (∃ weight, (m, weight) ∈ ms) ∧ ∃ value, (key, value) ∈ m.stats := by
  rw [weightedSum, StatTable.contains_ofContributions]
  simp only [List.mem_flatMap, contributions, List.mem_map, Prod.exists, Prod.mk.injEq]
  constructor
  · rintro ⟨_, m, weight, mem, _, value, contributes, rfl, -⟩
    exact ⟨m, ⟨weight, mem⟩, value, contributes⟩
  · rintro ⟨m, ⟨weight, mem⟩, value, contributes⟩
    exact ⟨_, m, weight, mem, key, value, contributes, rfl, rfl⟩

/-- Rational sums do not depend on the order of their terms. -/
theorem get?_weightedSum_of_perm {ms ms' : List (Modifier × ℚ)} (moved : ms.Perm ms')
    (key : String) : (weightedSum ms).get? key = (weightedSum ms').get? key := by
  have listed : (weightedSum ms).contains key = (weightedSum ms').contains key := by
    rw [Bool.eq_iff_iff, contains_weightedSum, contains_weightedSum]
    simp only [moved.mem_iff]
  rw [StatTable.get?_eq, StatTable.get?_eq (weightedSum ms'), listed, get_weightedSum,
    get_weightedSum, (moved.map _).sum_eq]

theorem total_eq_sum (ms : List Modifier) (key : String) :
    total ms key = (ms.map fun m => total [m] key).sum := by
  induction ms with
  | nil => rfl
  | cons m ms ih => rw [List.map_cons, List.sum_cons, ← ih, ← total_append, List.singleton_append]

end Modifier

namespace Item

open Text (lower)
open Modifier (Fits total)

variable {N : Type} {it : Item} {names : List String} {key : String}

theorem weightedStats_ok [StatNumber N] {weights : List N} (same : names.length = weights.length) :
    it.weightedStats names weights =
      .ok (Modifier.weightedSum (it.weightedModifiers names weights)) :=
  if_pos same

theorem weightedStats_error [StatNumber N] {weights : List N}
    (other : names.length ≠ weights.length) : it.weightedStats names weights =
      .error (.lengthMismatch "ModWeightedStatSum" names.length weights.length) :=
  if_neg other

theorem length_of_weightedStats [StatNumber N] {weights : List N} {table : StatTable N}
    (h : it.weightedStats names weights = .ok table) : names.length = weights.length := by
  by_contra other
  rw [weightedStats_error other] at h
  cases h

theorem weightedModifiers_perm {names' : List String} {weights weights' : List N}
    (moved : (names'.zip weights').Perm (names.zip weights)) :
    (it.weightedModifiers names' weights').Perm (it.weightedModifiers names weights) :=
  List.Perm.flatMap_left it.modifiers fun _ _ => (moved.filter _).map _

/-- What the modifiers add up to for a stat, each of them with all weights of its name. -/
def weightedTotal (it : Item) (weighting : List (String × ℚ)) (key : String) : ℚ :=
  (it.modifiers.map fun m => (weighting.map fun p =>
    if lower p.1 = lower m.name then m.weighted key p.2 else 0).sum).sum

theorem get_weightedModifiers (weights : List ℚ) :
    (Modifier.weightedSum (it.weightedModifiers names weights)).get key =
      it.weightedTotal (names.zip weights) key := by
  rw [Modifier.get_weightedSum, weightedModifiers, List.map_flatMap, List.flatMap_def,
    List.sum_flatten, List.map_map, weightedTotal]
  refine congrArg List.sum (List.map_congr_left fun m _ => ?_)
  rw [List.sum_map_ite, List.map_const', List.sum_replicate, nsmul_zero, add_zero]
  simp only [Function.comp, List.map_map, beq_eq_decide]
  rfl

theorem zip_eq_ofFn {weights : List N} (same : names.length = weights.length) :
    names.zip weights = List.ofFn fun i : Fin names.length => (names[i], weights[i]) := by
  refine List.ext_getElem ?_ fun i _ _ => ?_
  · simp [same]
  · simp

theorem weightedTotal_zip (weights : List ℚ) (same : names.length = weights.length) :
    it.weightedTotal (names.zip weights) key = (it.modifiers.map fun m => ∑ i : Fin names.length,
      if lower names[i] = lower m.name then m.weighted key weights[i] else 0).sum := by
  rw [weightedTotal, zip_eq_ofFn same]
  simp only [List.map_ofFn, List.sum_ofFn, Function.comp]

theorem mem_weightedModifiers {weights : List N} (same : names.length = weights.length)
    {m : Modifier} : (∃ weight, (m, weight) ∈ it.weightedModifiers names weights) ↔
      m ∈ it.modifiers ∧ ∃ i : Fin names.length, lower names[i] = lower m.name := by
  rw [weightedModifiers, zip_eq_ofFn same]
  simp only [List.mem_flatMap, List.mem_map, List.mem_filter, List.mem_ofFn, beq_iff_eq]
  constructor
  · rintro ⟨weight, _, mem, _, ⟨⟨i, rfl⟩, named⟩, ⟨⟩⟩
    exact ⟨mem, i, named⟩
  · rintro ⟨mem, i, named⟩
    exact ⟨_, m, mem, _, ⟨⟨i, rfl⟩, named⟩, rfl⟩

theorem contains_weightedModifiers [StatNumber N] {weights : List N}
    (same : names.length = weights.length) :
    (Modifier.weightedSum (it.weightedModifiers names weights)).contains key ↔
      ∃ m ∈ it.modifiers, ∃ i : Fin names.length,
        lower names[i] = lower m.name ∧ ∃ value, (key, value) ∈ m.stats := by
  rw [Modifier.contains_weightedSum]
  simp only [mem_weightedModifiers same, and_assoc, exists_and_right]

theorem weightedTotal_linear (a b : ℚ) {weights weights' : List ℚ}
    (same : names.length = weights.length) (same' : names.length = weights'.length) :
    it.weightedTotal (names.zip (weights.zipWith (a * · + b * ·) weights')) key =
      a * it.weightedTotal (names.zip weights) key +
        b * it.weightedTotal (names.zip weights') key := by
  have both : names.length = (weights.zipWith (a * · + b * ·) weights').length := by
    rw [List.length_zipWith, ← same, ← same', Nat.min_self]
  rw [weightedTotal_zip _ same, weightedTotal_zip _ same', weightedTotal_zip _ both,
    ← List.sum_map_mul_left, ← List.sum_map_mul_left, ← List.sum_map_add]
  refine congrArg List.sum (List.map_congr_left fun m _ => ?_)
  rw [Finset.mul_sum, Finset.mul_sum, ← Finset.sum_add_distrib]
  refine Finset.sum_congr rfl fun i _ => ?_
  simp only [Fin.getElem_fin, List.getElem_zipWith]
  split
  · rw [m.weighted_eq, m.weighted_eq, m.weighted_eq]
    ring
  · ring

/-- How a weighted sum depends on the names and their weights. -/
structure WeightedStatsLaws (it : Item) (names : List String) : Prop where
  fails : ∀ {N : Type} [StatNumber N] (weights : List N),
    (∃ fault, it.weightedStats names weights = .error fault) ↔ names.length ≠ weights.length
  /-- Every contribution of every modifier counts with the weight of each place of its name. -/
  value : ∀ (weights : List ℚ) (_ : names.length = weights.length),
    ∃ table, it.weightedStats names weights = .ok table ∧ ∀ key,
      table.get key = (it.modifiers.map fun m => ∑ i : Fin names.length,
        if lower names[i] = lower m.name then m.weighted key weights[i] else 0).sum ∧
      (table.contains key ↔ ∃ m ∈ it.modifiers, ∃ i : Fin names.length,
        lower names[i] = lower m.name ∧ ∃ value, (key, value) ∈ m.stats)
  linear : ∀ (a b : ℚ) (weights weights' : List ℚ) (table table' : StatTable ℚ),
    it.weightedStats names weights = .ok table → it.weightedStats names weights' = .ok table' →
      ∃ sum, it.weightedStats names (weights.zipWith (a * · + b * ·) weights') = .ok sum ∧
        ∀ key, sum.get key = a * table.get key + b * table'.get key ∧
          sum.contains key = table.contains key
  order : ∀ (names' : List String) (weights weights' : List ℚ) (table : StatTable ℚ),
    names'.length = weights'.length → (names'.zip weights').Perm (names.zip weights) →
      it.weightedStats names weights = .ok table →
        ∃ table', it.weightedStats names' weights' = .ok table' ∧
          table'.entries.Perm table.entries
  /-- With different names and all weights one it is the sum of the modifiers that are named. -/
  ones : (names.map lower).Nodup →
    ∃ table, it.weightedStats names (List.replicate names.length (1 : ℚ)) = .ok table ∧ ∀ key,
      let listed := it.modifiers.filter fun m => lower m.name ∈ names.map lower
      table.get key = total listed key ∧
        (Fits listed key → table.get key = ((Modifier.sum listed).get key).toInt) ∧
        table.contains key = (Modifier.sum listed).contains key

theorem sum_ite_of_nodup {l : List String} (distinct : l.Nodup) (name : String) (x : ℚ) :
    (l.map fun other => if other = name then x else 0).sum = if name ∈ l then x else 0 := by
  induction l with
  | nil => rfl
  | cons other l ih =>
    obtain ⟨fresh, distinct⟩ := List.nodup_cons.1 distinct
    rw [List.map_cons, List.sum_cons, ih distinct]
    by_cases same : other = name
    · subst same
      simp [fresh]
    · simp [same, Ne.symm same]

theorem weightedTotal_ones (distinct : (names.map lower).Nodup) (key : String) :
    it.weightedTotal (names.zip (List.replicate names.length 1)) key =
      total (it.modifiers.filter fun m => lower m.name ∈ names.map lower) key := by
  have unweighted : names.zip (List.replicate names.length (1 : ℚ)) = names.map (·, 1) := by
    refine List.ext_getElem ?_ fun i _ _ => ?_
    · simp
    · simp
  have once (m : Modifier) : (names.map fun name =>
      if lower name = lower m.name then m.weighted key 1 else 0).sum =
        if lower m.name ∈ names.map lower then (total [m] key : ℚ) else 0 := by
    rw [m.weighted_eq, one_mul, ← sum_ite_of_nodup distinct, List.map_map]
    rfl
  rw [weightedTotal, unweighted]
  simp only [List.map_map, Function.comp_def, once]
  rw [List.sum_map_ite, List.map_const', List.sum_replicate, nsmul_zero, add_zero,
    Modifier.total_eq_sum, Int.cast_list_sum, List.map_map]
  rfl

theorem contains_sum_listed (key : String) :
    (Modifier.sum (it.modifiers.filter fun m => lower m.name ∈ names.map lower)).contains key ↔
      ∃ m ∈ it.modifiers, ∃ i : Fin names.length,
        lower names[i] = lower m.name ∧ ∃ value, (key, value) ∈ m.stats := by
  have listed (m : Modifier) : lower m.name ∈ names.map lower ↔
      ∃ i : Fin names.length, lower names[i] = lower m.name := by
    rw [List.mem_map, List.exists_mem_iff_getElem, Fin.exists_iff]
    rfl
  simp only [Modifier.contains_sum, List.mem_flatMap, List.mem_filter, decide_eq_true_eq, listed]
  constructor
  · rintro ⟨value, m, ⟨mem, i, same⟩, contributes⟩
    exact ⟨m, mem, i, same, value, contributes⟩
  · rintro ⟨m, mem, i, same, value, contributes⟩
    exact ⟨value, m, ⟨mem, i, same⟩, contributes⟩

theorem weightedStats_laws (it : Item) (names : List String) : it.WeightedStatsLaws names where
  fails weights := by
    constructor
    · rintro ⟨fault, failed⟩ same
      rw [weightedStats_ok same] at failed
      cases failed
    · exact fun other => ⟨_, weightedStats_error other⟩
  value weights same := by
    refine ⟨_, weightedStats_ok same, fun key => ⟨?_, ?_⟩⟩
    · rw [get_weightedModifiers, weightedTotal_zip weights same]
    · rw [contains_weightedModifiers same]
  linear a b weights weights' table table' found found' := by
    have same := length_of_weightedStats found
    have same' := length_of_weightedStats found'
    have both : names.length = (weights.zipWith (a * · + b * ·) weights').length := by
      rw [List.length_zipWith, ← same, ← same', Nat.min_self]
    rw [weightedStats_ok same] at found
    rw [weightedStats_ok same'] at found'
    cases found
    cases found'
    refine ⟨_, weightedStats_ok both, fun key => ⟨?_, ?_⟩⟩
    · rw [get_weightedModifiers, get_weightedModifiers, get_weightedModifiers,
        weightedTotal_linear a b same same']
    · rw [Bool.eq_iff_iff, contains_weightedModifiers both, contains_weightedModifiers same]
  order names' weights weights' table same moved found := by
    rw [weightedStats_ok (length_of_weightedStats found)] at found
    cases found
    exact ⟨_, weightedStats_ok same, StatTable.entries_perm
      (Modifier.get?_weightedSum_of_perm (weightedModifiers_perm moved))⟩
  ones distinct := by
    have same : names.length = (List.replicate names.length (1 : ℚ)).length :=
      List.length_replicate.symm
    refine ⟨_, weightedStats_ok same, fun key => ?_⟩
    have exact : (Modifier.weightedSum (it.weightedModifiers names _)).get key = _ :=
      (get_weightedModifiers _).trans (weightedTotal_ones distinct key)
    refine ⟨exact, fun fits => exact.trans (congrArg _ fits.toInt_get.symm), ?_⟩
    rw [Bool.eq_iff_iff, contains_weightedModifiers same, contains_sum_listed]

end Item

end LootFilter
