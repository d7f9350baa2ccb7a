import LootFilter.Item.Item

/-!
# Maps

What the modifiers of a map say about it. An item that is not a map has none of these traits.
-/

namespace LootFilter.Item

def isMap (it : Item) : Bool := it.attributes.map.isSome

def mapAttributes (it : Item) : MapAttributes := it.attributes.map.getD {}

def mapStat (it : Item) (key : String) : Int64 := if it.isMap then it.stats.get key else 0

def elderBoss (it : Item) : Int64 := it.mapStat "map_elder_boss_variation"

def citadel (it : Item) : Int64 := it.mapStat "map_contains_citadel"

def hasElderBoss (it : Item) : Bool := 1 ≤ it.elderBoss && it.elderBoss ≤ 4

def hasConqueror (it : Item) : Bool := 1 ≤ it.citadel && it.citadel ≤ 4

def isOccupied (it : Item) : Bool := it.hasElderBoss || it.hasConqueror

def isBlighted (it : Item) : Bool := it.mapStat "is_blighted_map" == 1

def isBlightRavaged (it : Item) : Bool := it.mapStat "is_uber_blighted_map" == 1

def isUber (it : Item) : Bool := it.mapStat "map_is_uber_map" == 1

def isNormalMap (it : Item) : Bool :=
  it.isMap && !it.isBlighted && !it.isBlightRavaged && !it.isOccupied && !it.isUber

def isMemory (it : Item) : Bool := it.mapStat "map_zana_influence" == 1

end LootFilter.Item
