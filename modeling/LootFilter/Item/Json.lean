import LootFilter.Item.Attributes
import LootFilter.Json.Shape

/-!
# Attributes in JSON

The fields of the records that an observer reports, with their keys and in their order.
-/

namespace LootFilter

open Json (Reader Property listOf optional record)

def affixReader : Reader Affix := Json.choice (Affix.all.map fun a => (a.name, a))

def rarityReader : Reader Rarity := Json.choice (Rarity.all.map fun r => (r.name, r))

def statTableReader : Reader (StatTable Int64) :=
  Json.tableOf .empty (fun key value table => table.insert key value) Json.int64

def modifierFields : List (Property Modifier) :=
  [.must "name" Json.text fun v m => { m with name := v },
   .of "raw_name" Json.text fun v m => { m with rawName := v },
   .of "display_name" Json.text fun v m => { m with displayName := v },
   .of "affix" affixReader fun v m => { m with affix := v },
   .of "stats" (listOf (Json.pairOf Json.text Json.int64)) fun v m => { m with stats := v }]

def modifierReader : Reader Modifier := record modifierFields { name := "" }

def gemReader : Reader GemAttributes := record
  [.of "level" Json.int64 fun v g => { g with level := v },
   .of "max_level" Json.int64 fun v g => { g with maxLevel := v },
   .of "quality_type" Json.text fun v g => { g with qualityType := v },
   .of "is_gem" Json.bool fun v g => { g with isGem := v }] {}

def stackReader : Reader Stack := record
  [.of "count" Json.int64 fun v s => { s with count := v },
   .of "max_count" Json.int64 fun v s => { s with maxCount := v }] {}

def chargesReader : Reader Charges := record
  [.of "current" Json.int64 fun v c => { c with current := v },
   .of "max" Json.int64 fun v c => { c with max := v },
   .of "per_use" Json.int64 fun v c => { c with perUse := v }] {}

def flaskReader : Reader Flask := record
  [.of "life_recovery" Json.int64 fun v f => { f with lifeRecovery := v },
   .of "mana_recovery" Json.int64 fun v f => { f with manaRecovery := v },
   .of "stats" statTableReader fun v f => { f with stats := v }] {}

def aptitudeFields {σ : Type} (get : σ → Aptitudes) (set : Aptitudes → σ → σ) : List (Property σ) :=
  [.of "strength" Json.int64 fun v s => set { get s with strength := v } s,
   .of "dexterity" Json.int64 fun v s => set { get s with dexterity := v } s,
   .of "intelligence" Json.int64 fun v s => set { get s with intelligence := v } s]

def armourReader : Reader Armour := record
  [.of "armour" Json.int64 fun v a => { a with armour := v },
   .of "evasion" Json.int64 fun v a => { a with evasion := v },
   .of "es" Json.int64 fun v a => { a with energyShield := v },
   .of "perfection" Json.int64 fun v a => { a with perfection := v }] {}

def areaReader : Reader Area := record
  [.of "level" Json.int64 fun v a => { a with level := v },
   .of "name" Json.text fun v a => { a with name := v },
   .of "act" Json.int64 fun v a => { a with act := v }] {}

def modifierListsReader : Reader ModifierLists := record
  [.of "enchanted" (listOf modifierReader) fun v m => { m with enchanted := v },
   .of "implicit" (listOf modifierReader) fun v m => { m with implicit := v },
   .of "explicit" (listOf modifierReader) fun v m => { m with explicit := v },
   .of "fractured" (listOf modifierReader) fun v m => { m with fractured := v },
   .of "scourge" (listOf modifierReader) fun v m => { m with scourge := v },
   .of "synthesis" (listOf modifierReader) fun v m => { m with synthesis := v },
   .of "crucible" (listOf modifierReader) fun v m => { m with crucible := v }] {}

def mapReader : Reader MapAttributes := record
  [.of "tier" Json.int64 fun v m => { m with tier := v },
   .of "is_bonus_completed" Json.bool fun v m => { m with isBonusCompleted := v },
   .of "is_completed" Json.bool fun v m => { m with isCompleted := v }] {}

def socketsReader {Gem : Type} (gem : Reader Gem) : Reader (Sockets Gem) := record
  [.of "largest_link_size" Json.int64 fun v s => { s with largestLinkSize := v },
   .of "socket_groups" (listOf Json.text) fun v s => { s with groups := v },
   .of "socketed_gems" (listOf gem) fun v s => { s with gems := v }] {}

namespace Attributes

def fields (gem : Reader Attributes) : List (Property Attributes) :=
  [.of "path" Json.text fun v a => { a with path := v },
   .of "class_name" Json.text fun v a => { a with className := v },
   .of "base_name" Json.text fun v a => { a with baseName := v },
   .of "name" Json.text fun v a => { a with name := v },
   .of "public_price" Json.text fun v a => { a with publicPrice := v },
   .of "heist_contract_job_type" Json.text fun v a => { a with heistJobType := v },
   .of "resource_path" Json.text fun v a => { a with resourcePath := v },
   .of "item_quality" Json.int64 fun v a => { a with quality := v },
   .of "item_level" Json.int64 fun v a => { a with itemLevel := v },
   .of "required_level" Json.int64 fun v a => { a with requiredLevel := v },
   .of "heist_contract_req_job_level" Json.int64 fun v a => { a with heistJobLevel := v },
   .of "scourge_tier" Json.int64 fun v a => { a with scourgeTier := v },
   .of "memory_strands" Json.int64 fun v a => { a with memoryStrands := v },
   .of "height" Json.int64 fun v a => { a with height := v },
   .of "width" Json.int64 fun v a => { a with width := v },
   .of "shield_block_chance" Json.int64 fun v a => { a with shieldBlockChance := v },
   .of "id" Json.int64 fun v a => { a with id := v },
   .of "inventory_id" Json.int64 fun v a => { a with inventoryId := v },
   .of "is_identified" Json.bool fun v a => { a with isIdentified := v },
   .of "is_mirrored" Json.bool fun v a => { a with isMirrored := v },
   .of "is_corrupted" Json.bool fun v a => { a with isCorrupted := v },
   .of "is_elder" Json.bool fun v a => { a with isElder := v },
   .of "is_shaper" Json.bool fun v a => { a with isShaper := v },
   .of "is_crusader" Json.bool fun v a => { a with isCrusader := v },
   .of "is_redeemer" Json.bool fun v a => { a with isRedeemer := v },
   .of "is_hunter" Json.bool fun v a => { a with isHunter := v },
   .of "is_warlord" Json.bool fun v a => { a with isWarlord := v },
   .of "is_synthesised" Json.bool fun v a => { a with isSynthesised := v },
   .of "rarity" rarityReader fun v a => { a with rarity := v },
   .of "path_tags" (listOf Json.text) fun v a => { a with pathTags := v },
   .of "tags" (listOf Json.text) fun v a => { a with tags := v },
   .of "distance" (optional Json.real) fun v a => { a with distance := v },
   .of "gem" (optional gemReader) fun v a => { a with gem := v },
   .of "stack" stackReader fun v a => { a with stack := v },
   .of "charges" chargesReader fun v a => { a with charges := v },
   .of "flask" flaskReader fun v a => { a with flask := v },
   .of "attribute_requirements" (record (aptitudeFields (fun v => v) fun v _ => v) {})
     fun v a => { a with requirements := v },
   .of "armour" armourReader fun v a => { a with armour := v },
   .of "area" areaReader fun v a => { a with area := v },
   .of "sockets" (socketsReader gem) fun v a => { a with sockets := v },
   .of "mods" modifierListsReader fun v a => { a with mods := v },
   .of "map" (optional mapReader) fun v a => { a with map := v },
   .of "attack_time" (optional Json.int64) fun v a => { a with attackTime := v },
   .of "local_stats" statTableReader fun v a => { a with localStats := v }]

/-- Reads an item in which gems are socketed less than `nesting` items deep. -/
def readerWithin : (nesting : Nat) → Reader Attributes
  | 0 => fun _ _ => .error .malformed
  | nesting + 1 => record (fields (readerWithin nesting)) {}

/-- Reads an item. Every gem opens a bracket, so that none is deeper than the brackets allow. -/
def reader : Reader Attributes := fun depth cs => readerWithin (depth + 1) depth cs

def ofJson (json : String) : Except Json.Flaw Attributes := Json.readAll reader json

end Attributes

namespace Player

def reader : Reader Player := record
  (.of "level" Json.int64 (fun v p => { p with level := v }) ::
    aptitudeFields Player.aptitudes (fun v p => { p with aptitudes := v }) ++
   [.of "equipped" (listOf Attributes.reader) fun v p => { p with equipped := v },
    .of "inventory" (listOf Attributes.reader) fun v p => { p with inventory := v }]) {}

def ofJson (json : String) : Except Json.Flaw Player := Json.readAll reader json

end Player

end LootFilter
