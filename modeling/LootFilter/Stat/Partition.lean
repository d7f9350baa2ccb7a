import LootFilter.Stat.Modifier

/-!
# Partitions and their sums

An item's modifiers come in named partitions, of which the first is the union of the others. The sum
of a partition is computed when it is first asked for, and then kept.
-/

namespace LootFilter

inductive Partition where
  | itemMods
  | enchantedMods
  | explicitMods
  | fracturedMods
  | implicitMods
  | scourgeMods
  | synthesisMods
  | crucibleMods
deriving DecidableEq, Repr, Inhabited

namespace Partition

def all : List Partition :=
  [itemMods, enchantedMods, explicitMods, fracturedMods, implicitMods, scourgeMods, synthesisMods,
   crucibleMods]

def name : Partition → String
  | itemMods => "ItemMods"
  | enchantedMods => "EnchantedMods"
  | explicitMods => "ExplicitMods"
  | fracturedMods => "FracturedMods"
  | implicitMods => "ImplicitMods"
  | scourgeMods => "ScourgeMods"
  | synthesisMods => "SynthesisMods"
  | crucibleMods => "CrucibleMods"

end Partition

structure PartitionSums where
  sum? : Partition → Option (StatTable Int64)

namespace PartitionSums

def empty : PartitionSums := ⟨fun _ => none⟩

instance : Inhabited PartitionSums := ⟨empty⟩

def has (sums : PartitionSums) (p : Partition) : Bool := (sums.sum? p).isSome

def insert (sums : PartitionSums) (p : Partition) (sum : StatTable Int64) : PartitionSums :=
  ⟨fun q => if q = p then some sum else sums.sum? q⟩

/-- The kept sum of a partition, or else `sum`, which is then kept. -/
def getOrInsert (sums : PartitionSums) (p : Partition) (sum : StatTable Int64) :
    StatTable Int64 × PartitionSums :=
  match sums.sum? p with
  | some kept => (kept, sums)
  | none => (sum, sums.insert p sum)

end PartitionSums

end LootFilter
