import LootFilter.Item.Item
import LootFilter.Language.Type

/-!
# Records

A record is an item, one of its modifiers, the player, or a part of an item. Two records are the
same if they are of one kind and stand at the same place, whatever their contents.
-/

namespace LootFilter

/-- What a record of a kind is about. A part is about its item, and the player may be unknown. -/
abbrev RecordKind.Subject : RecordKind → Type
  | item => Item
  | modifier => PlacedModifier
  | player => Option Player
  | part _ => Item

structure Record where
  kind : RecordKind
  subject : kind.Subject

namespace Record

@[match_pattern] abbrev item (it : Item) : Record := ⟨.item, it⟩

@[match_pattern] abbrev modifier (m : PlacedModifier) : Record := ⟨.modifier, m⟩

@[match_pattern] abbrev player (p : Option Player) : Record := ⟨.player, p⟩

@[match_pattern] abbrev part (p : Part) (it : Item) : Record := ⟨.part p, it⟩

def same : Record → Record → Bool
  | item a, item b => a.place = b.place
  | modifier a, modifier b => a.owner = b.owner && a.shelf = b.shelf && a.index = b.index
  | player a, player b => a.isSome = b.isSome
  | part p a, part q b => p = q && a.place = b.place
  | _, _ => false

end Record

/-- A collection of modifiers: a whole partition of an item, or some modifiers picked out. -/
inductive Mods where
  | partition (it : Item) (p : Partition)
  | picked (ms : List PlacedModifier)

namespace Mods

def toList : Mods → List PlacedModifier
  | partition it p => it.shelf (.partition p)
  | picked ms => ms

def size (mods : Mods) : Nat := mods.toList.length

def isEmpty (mods : Mods) : Bool := mods.toList.isEmpty

end Mods

end LootFilter
