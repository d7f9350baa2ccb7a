import LootFilter.Item.Map
import LootFilter.Session.Session

/-!
# Fields of records

The tables of the fields that rules can name, record by record. Every field has a type, and its
reading can only give values of that type.
-/

namespace LootFilter

inductive Reading (α : Type) : Ty → Type where
  | bool (f : α → Bool) : Reading α .bool
  | int (f : α → Int64) : Reading α .int
  | real (f : α → Float) : Reading α .real
  | text (f : α → String) : Reading α .text
  | ints (f : α → List Int64) : Reading α (.list (.scalar .int))
  | texts (f : α → List String) : Reading α (.list (.scalar .text))
  | items (f : α → List Item) : Reading α (.list (.record .item))
  | mods (f : α → Mods) : Reading α .mods
  | stats (f : α → StatTable Int64) : Reading α .intStats
  | part (p : Part) (f : α → Item) : Reading α (.record (.part p))
  | player (f : α → Option Player) : Reading α (.record .player)
  /-- The sum of all modifiers of an item, which is kept. -/
  | allStats (f : α → Item) : Reading α .intStats
  /-- The value of an item, which is kept. -/
  | price (f : α → Item) : Reading α .real

def Reading.run {α : Type} {ty : Ty} (a : α) : Reading α ty → SessionM Value
  | bool f => pure (.bool (f a))
  | int f => pure (.int (f a))
  | real f => pure (.real (f a))
  | text f => pure (.text (f a))
  | ints f => pure (.list ((f a).map .int))
  | texts f => pure (.list ((f a).map .text))
  | items f => pure (.list ((f a).map fun it => .record (.item it)))
  | mods f => pure (.mods (f a))
  | stats f => pure (.intStats (f a))
  | part p f => pure (.record (.part p (f a)))
  | player f => pure (.record (.player (f a)))
  | allStats f => .intStats <$> Session.sumPartition (f a) .itemMods
  | price f => .real <$> Session.estimateValue (f a)

structure RecordField (α : Type) where
  name : String
  ty : Ty
  reading : Reading α ty

namespace Item

def fields : List (RecordField Item) :=
  [⟨"Path", _, .text fun it => it.attributes.path⟩,
   ⟨"ClassName", _, .text className⟩,
   ⟨"BaseName", _, .text baseName⟩,
   ⟨"Name", _, .text fun it => it.attributes.name⟩,
   ⟨"PublicPrice", _, .text fun it => it.attributes.publicPrice⟩,
   ⟨"HeistContractJobType", _, .text fun it => it.attributes.heistJobType⟩,
   ⟨"ResourcePath", _, .text fun it => it.attributes.resourcePath⟩,
   ⟨"ItemQuality", _, .int fun it => it.attributes.quality⟩,
   ⟨"VeiledModCount", _, .int veiledCount⟩,
   ⟨"FracturedModCount", _, .int fracturedCount⟩,
   ⟨"ItemLevel", _, .int fun it => it.attributes.itemLevel⟩,
   ⟨"RequiredLevel", _, .int fun it => it.attributes.requiredLevel⟩,
   ⟨"RealRequiredLevel", _, .int realRequiredLevel⟩,
   ⟨"DeliriumStacks", _, .int deliriumStacks⟩,
   ⟨"HeistContractReqJobLevel", _, .int fun it => it.attributes.heistJobLevel⟩,
   ⟨"ScourgeTier", _, .int fun it => it.attributes.scourgeTier⟩,
   ⟨"IsIdentified", _, .bool fun it => it.attributes.isIdentified⟩,
   ⟨"IsMirrored", _, .bool fun it => it.attributes.isMirrored⟩,
   ⟨"IsCorrupted", _, .bool fun it => it.attributes.isCorrupted⟩,
   ⟨"IsElder", _, .bool fun it => it.attributes.isElder⟩,
   ⟨"IsShaper", _, .bool fun it => it.attributes.isShaper⟩,
   ⟨"IsCrusader", _, .bool fun it => it.attributes.isCrusader⟩,
   ⟨"IsRedeemer", _, .bool fun it => it.attributes.isRedeemer⟩,
   ⟨"IsHunter", _, .bool fun it => it.attributes.isHunter⟩,
   ⟨"IsWarlord", _, .bool fun it => it.attributes.isWarlord⟩,
   ⟨"IsInfluenced", _, .bool isInfluenced⟩,
   ⟨"IsSynthesised", _, .bool fun it => it.attributes.isSynthesised⟩,
   ⟨"Enchanted", _, .bool isEnchanted⟩,
   ⟨"Rarity", _, .text fun it => it.attributes.rarity.name⟩,
   ⟨"ModsNames", _, .texts modifierNames⟩,
   ⟨"PathTags", _, .texts fun it => it.attributes.pathTags⟩,
   ⟨"Tags", _, .texts fun it => it.attributes.tags⟩,
   ⟨"Id", _, .int fun it => it.attributes.id⟩,
   ⟨"InventoryId", _, .int fun it => it.attributes.inventoryId⟩,
   ⟨"Height", _, .int fun it => it.attributes.height⟩,
   ⟨"Width", _, .int fun it => it.attributes.width⟩,
   ⟨"MemoryStrands", _, .int fun it => it.attributes.memoryStrands⟩,
   ⟨"IsWeapon", _, .bool isWeapon⟩,
   ⟨"ShieldBlockChance", _, .int fun it => it.attributes.shieldBlockChance⟩,
   ⟨"Distance", _, .real distance⟩,
   ⟨"EstimatedValue", _, .price fun it => it⟩,
   ⟨"GemInfo", _, .part .gem fun it => it⟩,
   ⟨"StackInfo", _, .part .stack fun it => it⟩,
   ⟨"SocketInfo", _, .part .sockets fun it => it⟩,
   ⟨"ChargeInfo", _, .part .charges fun it => it⟩,
   ⟨"FlaskInfo", _, .part .flask fun it => it⟩,
   ⟨"AttributeRequirements", _, .part .requirements fun it => it⟩,
   ⟨"ArmourInfo", _, .part .armour fun it => it⟩,
   ⟨"ModsInfo", _, .part .mods fun it => it⟩,
   ⟨"AreaInfo", _, .part .area fun it => it⟩,
   ⟨"MapInfo", _, .part .map fun it => it⟩,
   ⟨"AttackSpeed", _, .part .attackSpeed fun it => it⟩,
   ⟨"PlayerInfo", _, .player fun it => it.player⟩,
   ⟨"LocalStats", _, .stats fun it => it.attributes.localStats⟩,
   ⟨"ItemStats", _, .allStats fun it => it⟩]

end Item

namespace PlacedModifier

def fields : List (RecordField PlacedModifier) :=
  [⟨"Name", _, .text fun m => m.modifier.name⟩,
   ⟨"RawName", _, .text fun m => m.modifier.rawName⟩,
   ⟨"DisplayName", _, .text fun m => m.modifier.displayName⟩,
   ⟨"Affix", _, .text fun m => m.modifier.affix.name⟩,
   ⟨"Values", _, .ints fun m => m.modifier.stats.map Prod.snd⟩,
   ⟨"Stats", _, .stats fun m => Modifier.sum [m.modifier]⟩]

end PlacedModifier

namespace Player

/-- The fields of the player; one who is not known has nothing. -/
def fields : List (RecordField (Option Player)) :=
  let known (p : Option Player) : Player := p.getD {}
  [⟨"Level", _, .int fun p => (known p).level⟩,
   ⟨"Strength", _, .int fun p => (known p).aptitudes.strength⟩,
   ⟨"Dexterity", _, .int fun p => (known p).aptitudes.dexterity⟩,
   ⟨"Intelligence", _, .int fun p => (known p).aptitudes.intelligence⟩,
   ⟨"EquippedItems", _, .items fun p => (known p).equippedItems⟩,
   ⟨"InventoryItems", _, .items fun p => (known p).inventoryItems⟩,
   ⟨"OwnedItems", _, .items fun p => (known p).ownedItems⟩,
   ⟨"OwnedGems", _, .items fun p => (known p).ownedGems⟩]

end Player

namespace Part

def partitionFields : List (RecordField Item) :=
  Partition.all.map fun p => ⟨p.name, _, .mods fun it => .partition it p⟩

def fields : Part → List (RecordField Item)
  | gem =>
    [⟨"Level", _, .int fun it => it.gemAttributes.level⟩,
     ⟨"MaxLevel", _, .int fun it => it.gemAttributes.maxLevel⟩,
     ⟨"QualityType", _, .text fun it => it.gemAttributes.qualityType⟩,
     ⟨"IsGem", _, .bool Item.isGem⟩]
  | stack =>
    [⟨"Count", _, .int fun it => it.attributes.stack.count⟩,
     ⟨"MaxCount", _, .int fun it => it.attributes.stack.maxCount⟩]
  | sockets =>
    [⟨"LargestLinkSize", _, .int fun it => it.attributes.sockets.largestLinkSize⟩,
     ⟨"SocketNumber", _, .int Item.socketCount⟩,
     ⟨"SocketGroups", _, .texts fun it => it.attributes.sockets.groups⟩,
     ⟨"SocketedGems", _, .items Item.gems⟩]
  | charges =>
    [⟨"Current", _, .int fun it => it.attributes.charges.current⟩,
     ⟨"Max", _, .int fun it => it.attributes.charges.max⟩,
     ⟨"PerUse", _, .int fun it => it.attributes.charges.perUse⟩]
  | flask =>
    [⟨"LifeRecovery", _, .int fun it => it.attributes.flask.lifeRecovery⟩,
     ⟨"ManaRecovery", _, .int fun it => it.attributes.flask.manaRecovery⟩,
     ⟨"Stats", _, .stats fun it => it.attributes.flask.stats⟩]
  | requirements =>
    [⟨"Strength", _, .int fun it => it.attributes.requirements.strength⟩,
     ⟨"Dexterity", _, .int fun it => it.attributes.requirements.dexterity⟩,
     ⟨"Intelligence", _, .int fun it => it.attributes.requirements.intelligence⟩]
  | armour =>
    [⟨"Armour", _, .int fun it => it.attributes.armour.armour⟩,
     ⟨"Evasion", _, .int fun it => it.attributes.armour.evasion⟩,
     ⟨"ES", _, .int fun it => it.attributes.armour.energyShield⟩,
     ⟨"Perfection", _, .int fun it => it.attributes.armour.perfection⟩]
  | mods =>
    partitionFields ++
    [⟨"Prefixes", _, .mods fun it => .picked (it.shelf (.affix .leading))⟩,
     ⟨"Suffixes", _, .mods fun it => .picked (it.shelf (.affix .trailing))⟩,
     ⟨"OpenPrefixCount", _, .int Item.openLeading⟩,
     ⟨"OpenSuffixCount", _, .int Item.openTrailing⟩,
     ⟨"HasOpenPrefix", _, .bool fun it => 1 ≤ it.openLeading⟩,
     ⟨"HasOpenSuffix", _, .bool fun it => 1 ≤ it.openTrailing⟩]
  | area =>
    [⟨"Level", _, .int fun it => it.attributes.area.level⟩,
     ⟨"Name", _, .text fun it => it.attributes.area.name⟩,
     ⟨"Act", _, .int fun it => it.attributes.area.act⟩,
     ⟨"IsEndGame", _, .bool Item.isEndGame⟩]
  | map =>
    [⟨"IsMap", _, .bool Item.isMap⟩,
     ⟨"Tier", _, .int fun it => it.mapAttributes.tier⟩,
     ⟨"Quantity", _, .int fun it => it.mapStat "map_item_drop_quantity_+%"⟩,
     ⟨"Rarity", _, .int fun it => it.mapStat "map_item_drop_rarity_+%"⟩,
     ⟨"PackSize", _, .int fun it => it.mapStat "map_pack_size_+%"⟩,
     ⟨"Quality", _, .int fun it => it.attributes.quality⟩,
     ⟨"MoreMaps", _, .int fun it =>
        it.mapStat "map_map_item_drop_chance_+%_final_from_uber_mod"⟩,
     ⟨"MoreScarabs", _, .int fun it =>
        it.mapStat "map_scarab_drop_chance_+%_final_from_uber_mod"⟩,
     ⟨"MoreCurrency", _, .int fun it =>
        it.mapStat "map_currency_drop_chance_+%_final_from_uber_mod"⟩,
     ⟨"Occupied", _, .bool Item.isOccupied⟩,
     ⟨"OccupiedBy", _, .part .mapOccupation fun it => it⟩,
     ⟨"Type", _, .part .mapType fun it => it⟩,
     ⟨"Influence", _, .part .mapInfluence fun it => it⟩,
     ⟨"IsBonusCompleted", _, .bool fun it => it.mapAttributes.isBonusCompleted⟩,
     ⟨"IsCompleted", _, .bool fun it => it.mapAttributes.isCompleted⟩]
  | mapOccupation =>
    [⟨"ElderBoss", _, .bool Item.hasElderBoss⟩,
     ⟨"Enslaver", _, .bool fun it => it.elderBoss == 1⟩,
     ⟨"Eradicator", _, .bool fun it => it.elderBoss == 2⟩,
     ⟨"Constrictor", _, .bool fun it => it.elderBoss == 3⟩,
     ⟨"Purifier", _, .bool fun it => it.elderBoss == 4⟩,
     ⟨"ConquerorBoss", _, .bool Item.hasConqueror⟩,
     ⟨"Baran", _, .bool fun it => it.citadel == 1⟩,
     ⟨"Veritania", _, .bool fun it => it.citadel == 2⟩,
     ⟨"AlHezmin", _, .bool fun it => it.citadel == 3⟩,
     ⟨"Drox", _, .bool fun it => it.citadel == 4⟩]
  | mapType =>
    [⟨"Normal", _, .bool Item.isNormalMap⟩,
     ⟨"Blighted", _, .bool Item.isBlighted⟩,
     ⟨"BlightRavaged", _, .bool Item.isBlightRavaged⟩,
     ⟨"Uber", _, .bool Item.isUber⟩]
  | mapInfluence => [⟨"Memory", _, .bool Item.isMemory⟩]
  | attackSpeed =>
    [⟨"Base", _, .real Item.baseAttackSpeed⟩,
     ⟨"Total", _, .real Item.totalAttackSpeed⟩]

end Part

namespace RecordKind

def fields : (k : RecordKind) → List (RecordField k.Subject)
  | item => Item.fields
  | modifier => PlacedModifier.fields
  | player => Player.fields
  | part p => p.fields

def aliases : RecordKind → List (String × String)
  | item => [("Corrupted", "IsCorrupted")]
  | _ => []

def field? (k : RecordKind) (name : String) : Option (Nat × Ty) :=
  let name := (k.aliases.lookup name).getD name
  (k.fields.findIdx? (·.name = name)).bind fun i => (k.fields[i]?).map fun field => (i, field.ty)

end RecordKind

namespace Record

def read (r : Record) (field : RecordField r.kind.Subject) : SessionM Value := do
  Session.note (.field r field.name)
  field.reading.run r.subject

def field? (r : Record) (index : Nat) : Option (SessionM Value) :=
  (r.kind.fields[index]?).map r.read

end Record

end LootFilter
