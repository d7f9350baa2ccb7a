import LootFilter.Decimal.Shortest
import LootFilter.Item.Attributes
import LootFilter.Stat.Partition
import LootFilter.Text.Quoted
import LootFilter.Text.Search

/-!
# Items

An item is a set of attributes at a place: the item that rules are asked about, an item that the
player owns, or a gem socketed in one of these. Everything else about it follows from its
attributes. Only the item that rules are asked about knows the player and prices.
-/

namespace LootFilter

/-- Where an item stands. Two items are the same item if they stand at the same place. -/
inductive Place where
  /-- The item that rules are asked about. -/
  | subject
  /-- An item of the player, the equipped ones counted first. -/
  | carried (n : Nat)
  | socketed (owner : Place) (n : Nat)
deriving DecidableEq, Repr, Inhabited

/-- Gives the value of an item, if it can tell. -/
abbrev PriceSource := Attributes → Option Float

structure Item where
  place : Place
  attributes : Attributes
  player : Option Player := none
  prices : Option PriceSource := none
deriving Inhabited

namespace ModifierLists

def all (mods : ModifierLists) : List Modifier :=
  mods.enchanted ++ mods.implicit ++ mods.explicit ++ mods.fractured ++ mods.scourge ++
    mods.synthesis ++ mods.crucible

def partition (mods : ModifierLists) : Partition → List Modifier
  | .itemMods => mods.all
  | .enchantedMods => mods.enchanted
  | .explicitMods => mods.explicit
  | .fracturedMods => mods.fractured
  | .implicitMods => mods.implicit
  | .scourgeMods => mods.scourge
  | .synthesisMods => mods.synthesis
  | .crucibleMods => mods.crucible

def withAffix (mods : ModifierLists) (affix : Affix) : List Modifier :=
  mods.explicit.filter (·.affix = affix)

end ModifierLists

/-- A list of modifiers of an item, as rules can refer to it. -/
inductive Shelf where
  | partition (p : Partition)
  | affix (a : Affix)
deriving DecidableEq, Repr

structure PlacedModifier where
  owner : Place
  shelf : Shelf
  index : Nat
  modifier : Modifier

def affixSlots (rarity : Rarity) (className : String) : Int64 :=
  match rarity with
  | .magic => 1
  | .rare => if className = "Jewel" then 2 else 3
  | _ => 0

namespace Item

def className (it : Item) : String := it.attributes.className

def baseName (it : Item) : String := it.attributes.baseName

/-! ## Modifiers -/

def modifiers (it : Item) : List Modifier := it.attributes.mods.all

def partition (it : Item) (p : Partition) : List Modifier := it.attributes.mods.partition p

def shelf (it : Item) (s : Shelf) : List PlacedModifier :=
  (match s with
    | .partition p => it.partition p
    | .affix a => it.attributes.mods.withAffix a).mapIdx fun index modifier =>
      { owner := it.place, shelf := s, index, modifier }

def partitionSum (it : Item) (p : Partition) : StatTable Int64 := Modifier.sum (it.partition p)

def stats (it : Item) : StatTable Int64 := it.partitionSum .itemMods

def modifierNames (it : Item) : List String := it.modifiers.map Modifier.name

def veiledCount (it : Item) : Int64 :=
  .ofNat (it.modifiers.countP fun m => Text.contains m.displayName "Veil")

def deliriumStacks (it : Item) : Int64 :=
  .ofNat (it.modifiers.countP fun m => Text.contains m.name "AfflictionMapReward")

def fracturedCount (it : Item) : Int64 := .ofNat it.attributes.mods.fractured.length

def isEnchanted (it : Item) : Bool := !it.attributes.mods.enchanted.isEmpty

/-! ## Affix slots -/

def affixSlots (it : Item) : Int64 := LootFilter.affixSlots it.attributes.rarity it.className

/-- How many affix slots are free when a modifier's stat `allowance` may add some; `-1` if the item
is not identified. -/
def openSlots (it : Item) (affix : Affix) (allowance : String) : Int64 :=
  if it.attributes.isIdentified then
    let used : Int64 := .ofNat (it.attributes.mods.withAffix affix).length
    max (it.affixSlots - used + it.stats.get allowance) 0
  else -1

def openLeading (it : Item) : Int64 := it.openSlots .leading "local_maximum_prefixes_allowed"

def openTrailing (it : Item) : Int64 := it.openSlots .trailing "local_maximum_suffixes_allowed"

/-! ## Sockets and gems -/

def gems (it : Item) : List Item :=
  it.attributes.sockets.gems.mapIdx fun n gem =>
    { place := .socketed it.place n, attributes := gem }

def socketCount (it : Item) : Int64 :=
  .ofNat (String.join it.attributes.sockets.groups).length

def realRequiredLevel (it : Item) : Int64 :=
  max (((it.attributes.sockets.gems.map Attributes.requiredLevel).max?).getD 0)
    it.attributes.requiredLevel

def gemAttributes (it : Item) : GemAttributes :=
  match it.attributes.gem with
  | some gem => { gem with isGem := true }
  | none => {}

def isGem (it : Item) : Bool := it.gemAttributes.isGem

/-! ## Other traits -/

def isInfluenced (it : Item) : Bool :=
  let a := it.attributes
  a.isCrusader || a.isRedeemer || a.isWarlord || a.isHunter || a.isShaper || a.isElder

/-- The distance to the player; infinite if the item is not on the ground. -/
def distance (it : Item) : Float := it.attributes.distance.getD (1.0 / 0.0)

def isEndGame (it : Item) : Bool := 10 < it.attributes.area.act

def isWeapon (it : Item) : Bool := it.attributes.attackTime.isSome

/-- Attacks per second without modifiers, not rounded; only weapons have any. -/
def attackRate? (it : Item) : Option Float :=
  match it.attributes.attackTime with
  | some ms => if 0 < ms then some (1000.0 / ms.toFloat) else none
  | none => none

def baseAttackSpeed (it : Item) : Float :=
  match it.attackRate? with
  | some rate => Decimal.roundTo rate 2
  | none => 0.0

def totalAttackSpeed (it : Item) : Float :=
  match it.attackRate? with
  | some rate =>
    let percent := 100 + it.attributes.localStats.get "local_attack_speed_+%"
    Decimal.roundTo (rate * (percent.toFloat / 100.0)) 2
  | none => 0.0

/-! ## Texts -/

def describe (it : Item) : String :=
  it.baseName ++ " (" ++ it.className ++ ") Dist: " ++ Decimal.text it.distance

def inspect (it : Item) : String :=
  "ItemSnapshot \x7b base_name: " ++ Text.quote it.baseName ++
    ", class_name: " ++ Text.quote it.className ++
    ", rarity: " ++ it.attributes.rarity.name ++
    ", item_level: " ++ toString it.attributes.itemLevel ++
    ", mods: " ++ toString it.modifiers.length ++ ", .. \x7d"

end Item

namespace Player

/-- The items of a list, the first of which is the `start`-th that the player carries. -/
def carriedFrom (start : Nat) (items : List Attributes) : List Item :=
  items.mapIdx fun n attributes => { place := .carried (start + n), attributes }

def equippedItems (p : Player) : List Item := carriedFrom 0 p.equipped

def inventoryItems (p : Player) : List Item := carriedFrom p.equipped.length p.inventory

def ownedItems (p : Player) : List Item := p.equippedItems ++ p.inventoryItems

/-- The gems that the player owns, those socketed in an item right behind it. -/
def ownedGems (p : Player) : List Item :=
  (p.ownedItems.flatMap fun it => it :: it.gems).filter Item.isGem

end Player

namespace Item

/-- The player who looks at the item; one who has nothing if none is known. -/
def viewer (it : Item) : Player := it.player.getD {}

end Item

end LootFilter
