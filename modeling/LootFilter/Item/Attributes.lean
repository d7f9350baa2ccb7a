import LootFilter.Stat.Modifier

/-!
# What is known about an item

The attributes of one item as an observer reports them. Every attribute has a value for items that
it was not reported for.
-/

namespace LootFilter

inductive Rarity where
  | normal
  | magic
  | rare
  | unique
  | gem
  | currency
  | quest
deriving DecidableEq, Repr, Inhabited

namespace Rarity

def all : List Rarity := [normal, magic, rare, unique, gem, currency, quest]

def name : Rarity → String
  | normal => "Normal"
  | magic => "Magic"
  | rare => "Rare"
  | unique => "Unique"
  | gem => "Gem"
  | currency => "Currency"
  | quest => "Quest"

end Rarity

structure GemAttributes where
  level : Int64 := 0
  maxLevel : Int64 := 0
  qualityType : String := ""
  isGem : Bool := false
deriving DecidableEq, Repr, Inhabited

structure Stack where
  count : Int64 := 0
  maxCount : Int64 := 0
deriving DecidableEq, Repr, Inhabited

structure Charges where
  current : Int64 := 0
  max : Int64 := 0
  perUse : Int64 := 0
deriving DecidableEq, Repr, Inhabited

structure Flask where
  lifeRecovery : Int64 := 0
  manaRecovery : Int64 := 0
  stats : StatTable Int64 := .empty
deriving Inhabited

structure Aptitudes where
  strength : Int64 := 0
  dexterity : Int64 := 0
  intelligence : Int64 := 0
deriving DecidableEq, Repr, Inhabited

structure Armour where
  armour : Int64 := 0
  evasion : Int64 := 0
  energyShield : Int64 := 0
  perfection : Int64 := 0
deriving DecidableEq, Repr, Inhabited

structure Area where
  level : Int64 := 0
  name : String := "N/A"
  act : Int64 := 0
deriving DecidableEq, Repr, Inhabited

structure ModifierLists where
  enchanted : List Modifier := []
  implicit : List Modifier := []
  explicit : List Modifier := []
  fractured : List Modifier := []
  scourge : List Modifier := []
  synthesis : List Modifier := []
  crucible : List Modifier := []
deriving DecidableEq, Repr, Inhabited

structure MapAttributes where
  tier : Int64 := 0
  isBonusCompleted : Bool := false
  isCompleted : Bool := false
deriving DecidableEq, Repr, Inhabited

structure Sockets (Gem : Type) where
  largestLinkSize : Int64 := 0
  groups : List String := []
  gems : List Gem := []

structure Attributes where
  path : String := ""
  className : String := ""
  baseName : String := ""
  name : String := ""
  publicPrice : String := ""
  heistJobType : String := ""
  resourcePath : String := ""
  quality : Int64 := 0
  itemLevel : Int64 := 0
  requiredLevel : Int64 := 0
  heistJobLevel : Int64 := 0
  scourgeTier : Int64 := 0
  memoryStrands : Int64 := 0
  height : Int64 := 0
  width : Int64 := 0
  shieldBlockChance : Int64 := 0
  id : Int64 := 0
  inventoryId : Int64 := 0
  isIdentified : Bool := false
  isMirrored : Bool := false
  isCorrupted : Bool := false
  isElder : Bool := false
  isShaper : Bool := false
  isCrusader : Bool := false
  isRedeemer : Bool := false
  isHunter : Bool := false
  isWarlord : Bool := false
  isSynthesised : Bool := false
  rarity : Rarity := .normal
  pathTags : List String := []
  tags : List String := []
  /-- The distance to the player, of an item on the ground. -/
  distance : Option Float := none
  gem : Option GemAttributes := none
  stack : Stack := {}
  charges : Charges := {}
  flask : Flask := {}
  requirements : Aptitudes := {}
  armour : Armour := {}
  area : Area := {}
  sockets : Sockets Attributes := {}
  mods : ModifierLists := {}
  map : Option MapAttributes := none
  /-- The time of one attack in milliseconds, reported for weapons. -/
  attackTime : Option Int64 := none
  localStats : StatTable Int64 := .empty
deriving Inhabited

structure Player where
  level : Int64 := 0
  aptitudes : Aptitudes := {}
  equipped : List Attributes := []
  inventory : List Attributes := []
deriving Inhabited

end LootFilter
