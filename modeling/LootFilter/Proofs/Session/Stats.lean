import LootFilter.Proofs.Language.Names
import LootFilter.Proofs.Session.History
import LootFilter.Proofs.Stat.Sums

/-!
# Stats of an item

The stats of an item are the sum of all its modifiers, and so add up over its partitions. What was
summed before, for this item or another one, shows in no sum.
-/

namespace LootFilter

/-- The sessions that operations on an item, and whatever rules may ask about it and its family,
lead to. -/
inductive Session.Reached (root : Item) : Session → Prop
  | start {s : Session} : (∀ place, s.memos place = none) → Reached root s
  | operation {s : Session} (op : Operation) : Reached root s → Reached root ((op.run root).run s).2
  | ask {α : Type} {s : Session} {e : SessionM α} : (Conduct.free root).Allows e →
      Reached root s → Reached root (e.run s).2

theorem Session.Reached.faithful {root : Item} {s : Session} (subject : root.place = .subject)
    (reached : s.Reached root) : s.Faithful root := by
  induction reached with
  | start fresh => exact faithful_of_memos fresh
  | operation op _ ih => exact op.run_faithful subject ih
  | ask allowed _ ih => exact allowed.faithful subject ih

namespace Partition

/-- The partitions that each modifier is in one of. -/
def named : List Partition := all.filter (· ≠ .itemMods)

end Partition

namespace Item

open Modifier (total)

variable {root it : Item} {s : Session}

/-- How the sums of an item's partitions hang together. -/
structure StatsAddUp (it : Item) : Prop where
  /-- The stats add up over the partitions, even if sums overflow. -/
  partitions : ∀ key,
    it.stats.get key = (Partition.named.map fun p => (it.partitionSum p).get key).sum
  /-- They add up as numbers if no sum overflows, and make up all contributions. -/
  exact : ∀ key, (∀ p, Modifier.Fits (it.partition p) key) →
    (it.stats.get key).toInt =
        (Partition.named.map fun p => ((it.partitionSum p).get key).toInt).sum ∧
      ∀ p, ((it.partitionSum p).get key).toInt = total (it.partition p) key
  contains : ∀ p key, (it.partitionSum p).contains key ↔
    ∃ m ∈ it.partition p, ∃ value, (key, value) ∈ m.stats
  rearranged : ∀ (other : Item) p, Modifier.Rearranged (it.partition p) (other.partition p) →
    (other.partitionSum p).entries.Perm (it.partitionSum p).entries
  rearrangedWithin : ∀ other : Item,
    (∀ p ∈ Partition.named, Modifier.Rearranged (it.partition p) (other.partition p)) →
      other.stats.entries.Perm it.stats.entries

theorem total_partitions (it : Item) (key : String) :
    total it.modifiers key = (Partition.named.map fun p => total (it.partition p) key).sum := by
  have listed : Partition.named = [.enchantedMods, .explicitMods, .fracturedMods, .implicitMods,
    .scourgeMods, .synthesisMods, .crucibleMods] := rfl
  simp only [listed, modifiers, ModifierLists.all, Modifier.total_append, partition,
    ModifierLists.partition, List.map_cons, List.map_nil, List.sum_cons, List.sum_nil]
  omega

theorem statsAddUp (it : Item) : it.StatsAddUp where
  partitions key := by
    have wrapped (ns : List Int) : (ns.map Int64.ofInt).sum = .ofInt ns.sum := by
      induction ns with
      | nil => rfl
      | cons n ns ih => rw [List.map_cons, List.sum_cons, List.sum_cons, ih, Int64.ofInt_add]
    have values : (Partition.named.map fun p => (it.partitionSum p).get key) =
        (Partition.named.map fun p => total (it.partition p) key).map Int64.ofInt := by
      rw [List.map_map]
      exact List.map_congr_left fun p _ => Modifier.get_sum _ key
    rw [values, wrapped, ← total_partitions]
    exact Modifier.get_sum _ key
  exact key fits := by
    have number (p : Partition) := (fits p).toInt_get
    refine ⟨?_, number⟩
    rw [stats, partitionSum, number]
    refine (total_partitions it key).trans (congrArg List.sum ?_)
    exact List.map_congr_left fun p _ => (number p).symm
  contains p key := by
    rw [partitionSum, Modifier.contains_sum]
    simp only [List.mem_flatMap]
    constructor
    · rintro ⟨value, m, mem, found⟩
      exact ⟨m, mem, value, found⟩
    · rintro ⟨m, mem, value, found⟩
      exact ⟨value, m, mem, found⟩
  rearranged other p moved :=
    StatTable.entries_perm fun key => (Modifier.get?_of_perm moved.stats key).symm
  rearrangedWithin other moved := by
    have contributions : ((it.partition .itemMods).flatMap Modifier.stats).Perm
        ((other.partition .itemMods).flatMap Modifier.stats) := by
      have part (p : Partition) (mem : p ∈ Partition.named) := (moved p mem).stats
      simp only [partition, ModifierLists.partition, ModifierLists.all, List.flatMap_append]
      refine (((((List.Perm.append ?_ ?_).append ?_).append ?_).append ?_).append ?_).append ?_
      · exact part .enchantedMods (by decide)
      · exact part .implicitMods (by decide)
      · exact part .explicitMods (by decide)
      · exact part .fracturedMods (by decide)
      · exact part .scourgeMods (by decide)
      · exact part .synthesisMods (by decide)
      · exact part .crucibleMods (by decide)
    exact StatTable.entries_perm fun key => (Modifier.get?_of_perm contributions key).symm

/-- What reading the stats of an item and summing its partitions gives in a session. -/
structure StatsIn (it : Item) (s : Session) : Prop where
  all : ∃ index read, RecordKind.item.field? "ItemStats" = some (index, .intStats) ∧
    (Record.item it).field? index = some read ∧ (read.run s).1 = .intStats it.stats
  partition : ∀ p : Partition, ∃ index read,
    (RecordKind.part .mods).field? p.name = some (index, .mods) ∧
      (Record.part .mods it).field? index = some read ∧
      (read.run s).1 = .mods (.partition it p)
  sums : ∀ p, ((Session.sumMods (.partition it p)).run s).1 = it.partitionSum p

theorem statsIn (subject : root.place = .subject) (reached : s.Reached root)
    (family : root.Family it) : it.StatsIn s where
  all := by
    refine ⟨54, _, rfl, rfl, ?_⟩
    have finds : Session.Finds root
        ((Record.item it).read ⟨"ItemStats", .intStats, .allStats fun it => it⟩)
        (.intStats it.stats) :=
      (Session.finds_note _).bind ((Session.finds_sumPartition subject family .itemMods).map _)
    exact (finds s (reached.faithful subject)).1
  partition p := by cases p <;> exact ⟨_, _, rfl, rfl, rfl⟩
  sums p := by
    have finds : Session.Finds root _ (Mods.partition it p).sum :=
      Session.finds_sumMods subject family
    rw [← Mods.sum_partition]
    exact (finds s (reached.faithful subject)).1

/-- The stats of an item of the family add up, and are read as such, whichever sums were computed
before and in whichever order. -/
theorem stats_add_up (subject : root.place = .subject) (reached : s.Reached root)
    (family : root.Family it) : it.StatsIn s ∧ it.StatsAddUp :=
  ⟨statsIn subject reached family, it.statsAddUp⟩

/-- Two modifiers that cancel each other, after the sum of one of them was computed. -/
theorem stats_add_up_cancelled :
    let gain : Modifier := { Modifier.ofName "Gain" with stats := [("life", 5)] }
    let loss : Modifier := { Modifier.ofName "Loss" with stats := [("life", -5)] }
    let root := snapshot { (default : Attributes) with
      mods := { explicit := [gain], implicit := [loss] } } none none
    let s := (((Operation.stats .explicitMods).run root).run {}).2
    root.StatsIn s ∧ root.stats.contains "life" ∧ root.stats.get "life" = 0 := by
  intro gain loss root s
  have reached : s.Reached root := .operation _ (.start fun _ => rfl)
  obtain ⟨reads, sums⟩ := stats_add_up rfl reached .self
  exact ⟨reads, (sums.contains .itemMods "life").2 ⟨gain, .tail _ (.head _), 5, .head _⟩, rfl⟩

end Item

end LootFilter
