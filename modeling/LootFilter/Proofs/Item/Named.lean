import LootFilter.Item.Lookup
import LootFilter.Proofs.Text.Lower
import Mathlib.Data.List.Perm.Subperm

/-!
# Looking for several modifiers

An item has all modifiers that are looked for if as many first ones of their names are found as
names are given. That is so just if the names are different ones, and are all names of modifiers.
-/

namespace LootFilter

namespace Item

open Text (lower lower_toLower)

variable {it : Item} {wanted wanted' seen : List String} {ms : List Modifier} {name : String}

def lowerNames (ms : List Modifier) : List String := ms.map fun m => lower m.name

/-! ## First modifiers of a name -/

theorem firstNamed_cons (m : Modifier) :
    firstNamed wanted seen (m :: ms) =
      if lower m.name ∈ wanted ∧ lower m.name ∉ seen then
        m :: firstNamed wanted (lower m.name :: seen) ms
      else firstNamed wanted seen ms := by
  simp only [firstNamed, Bool.and_eq_true, Bool.not_eq_true', List.contains_eq_mem,
    decide_eq_true_eq, decide_eq_false_iff_not]

theorem mem_firstNamed : name ∈ lowerNames (firstNamed wanted seen ms) ↔
    name ∈ wanted ∧ name ∉ seen ∧ name ∈ lowerNames ms := by
  induction ms generalizing seen with
  | nil => simp [firstNamed, lowerNames]
  | cons m ms ih =>
    have names (others : List Modifier) :
        name ∈ lowerNames (m :: others) ↔ name = lower m.name ∨ name ∈ lowerNames others :=
      List.mem_cons
    rw [firstNamed_cons, names]
    split
    · rename_i hit
      rw [names, ih, List.mem_cons, not_or]
      by_cases same : name = lower m.name
      · simp only [same, hit, true_or, not_false_eq_true, and_self]
      · simp only [same, false_or, not_false_eq_true, true_and]
    · rename_i missed
      rw [ih]
      have other (asked : name ∈ wanted) (fresh : name ∉ seen) : name ≠ lower m.name := by
        rintro rfl
        exact missed ⟨asked, fresh⟩
      exact ⟨fun ⟨asked, fresh, named⟩ => ⟨asked, fresh, .inr named⟩, fun ⟨asked, fresh, named⟩ =>
        ⟨asked, fresh, named.resolve_left (other asked fresh)⟩⟩

theorem nodup_firstNamed : (lowerNames (firstNamed wanted seen ms)).Nodup := by
  induction ms generalizing seen with
  | nil => exact .nil
  | cons m ms ih =>
    rw [firstNamed_cons]
    split
    · refine List.nodup_cons.2 ⟨fun again => ?_, ih⟩
      exact (mem_firstNamed.1 again).2.1 (.head _)
    · exact ih

/-- As many first modifiers are found as names are given if those are different ones, and all of
them are found. -/
theorem length_firstNamed : (firstNamed wanted [] ms).length = wanted.length ↔
    wanted.Nodup ∧ ∀ name ∈ wanted, name ∈ lowerNames ms := by
  have length : (firstNamed wanted [] ms).length =
      (lowerNames (firstNamed wanted [] ms)).length := (List.length_map _).symm
  have within : lowerNames (firstNamed wanted [] ms) ⊆ wanted :=
    fun _ found => (mem_firstNamed.1 found).1
  rw [length]
  constructor
  · intro all
    have perm := (List.subperm_of_subset nodup_firstNamed within).perm_of_length_le
      (Nat.le_of_eq all.symm)
    refine ⟨perm.nodup_iff.1 nodup_firstNamed, fun name asked => ?_⟩
    exact (mem_firstNamed.1 (perm.mem_iff.2 asked)).2.2
  · rintro ⟨distinct, named⟩
    have found : wanted ⊆ lowerNames (firstNamed wanted [] ms) :=
      fun name asked => mem_firstNamed.2 ⟨asked, List.not_mem_nil, named name asked⟩
    exact Nat.le_antisymm (List.subperm_of_subset nodup_firstNamed within).length_le
      (List.subperm_of_subset distinct found).length_le

/-! ## Wanted modifiers -/

theorem hasModifiers_iff : it.hasModifiers wanted ↔
    (wanted.map lower).Nodup ∧ ∀ name ∈ wanted.map lower, name ∈ lowerNames it.modifiers := by
  rw [hasModifiers, beq_iff_eq, modifiersNamed, ← length_firstNamed, List.length_map]

theorem occursIn_self (cs : List Char) : Text.occursIn cs cs := by
  cases cs with
  | nil => rfl
  | cons c cs =>
    rw [Text.occursIn, List.isPrefixOf_iff_prefix.2 List.prefix_rfl]
    rfl

theorem findModifiers_ne_nil {m : Modifier} {w : String} (mem : m ∈ it.modifiers)
    (same : lower m.name = lower w) : it.findModifiers w ≠ [] := by
  obtain ⟨i, inside, rfl⟩ := List.getElem_of_mem mem
  have placed : (⟨it.place, .partition .itemMods, i, it.modifiers[i]⟩ : PlacedModifier) ∈
      it.shelf (.partition .itemMods) := List.mem_mapIdx.2 ⟨i, inside, rfl⟩
  refine List.ne_nil_of_mem (List.mem_filter.2 ⟨placed, ?_⟩)
  rw [Text.containsIgnoringCase, same]
  exact occursIn_self _

theorem map_lower (names : List String) :
    names.map lower = (names.map String.toLower).map lower := by
  rw [List.map_map]
  exact List.map_congr_left fun name _ => (lower_toLower name).symm

/-- What it means that an item has modifiers of some names, and what does not matter for it. -/
structure HasModifiersLaws (it : Item) (wanted : List String) : Prop where
  meaning : it.hasModifiers wanted ↔
    (wanted.map lower).Nodup ∧ ∀ w ∈ wanted, ∃ m ∈ it.modifiers, lower m.name = lower w
  order : ∀ wanted' : List String, wanted'.Perm wanted →
    it.hasModifiers wanted' = it.hasModifiers wanted
  /-- The letter case of ASCII letters does not matter. -/
  letters : ∀ wanted' : List String, wanted'.map String.toLower = wanted.map String.toLower →
    it.hasModifiers wanted' = it.hasModifiers wanted
  /-- It does not matter how many modifiers of a name there are, or where they stand. -/
  repeats : ∀ other : Item,
    (∀ name, name ∈ lowerNames other.modifiers ↔ name ∈ lowerNames it.modifiers) →
      other.hasModifiers wanted = it.hasModifiers wanted
  found : it.hasModifiers wanted → ∀ w ∈ wanted, it.findModifiers w ≠ []

theorem hasModifiers_laws (it : Item) (wanted : List String) : it.HasModifiersLaws wanted where
  meaning := by
    rw [hasModifiers_iff, List.forall_mem_map]
    simp only [lowerNames, List.mem_map]
  order wanted' moved := by
    rw [Bool.eq_iff_iff, hasModifiers_iff, hasModifiers_iff, (moved.map lower).nodup_iff]
    simp only [(moved.map lower).mem_iff]
  letters wanted' same := by
    rw [Bool.eq_iff_iff, hasModifiers_iff, hasModifiers_iff, map_lower, same, ← map_lower]
  repeats other same := by
    rw [Bool.eq_iff_iff, hasModifiers_iff, hasModifiers_iff]
    simp only [same]
  found has w asked := by
    have named := (hasModifiers_iff.1 has).2 _ (List.mem_map_of_mem asked)
    obtain ⟨m, mem, same⟩ := List.mem_map.1 named
    exact findModifiers_ne_nil mem same

end Item

end LootFilter
