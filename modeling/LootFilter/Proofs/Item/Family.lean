import LootFilter.Value.Record

/-!
# The family of an item

Evaluating a rule on an item can come to other items: those that the player carries, and the gems in
all of these. They stand at different places, so what is kept at a place belongs to one of them.
-/

namespace LootFilter

/-- The items that can be reached from an item. -/
inductive Item.Family (root : Item) : Item → Prop
  | self : Family root root
  | carried {p : Player} {it : Item} : root.player = some p → it ∈ p.ownedItems → Family root it
  | socketed {it gem : Item} : Family root it → gem ∈ it.gems → Family root gem

namespace Player

theorem place_of_carriedFrom {start n : Nat} {items : List Attributes} {it : Item}
    (h : (carriedFrom start items)[n]? = some it) : it.place = .carried (start + n) := by
  simp only [carriedFrom, List.getElem?_mapIdx, Option.map_eq_some_iff] at h
  obtain ⟨attributes, -, rfl⟩ := h
  rfl

theorem place_of_ownedItems {p : Player} {n : Nat} {it : Item}
    (h : p.ownedItems[n]? = some it) : it.place = .carried n := by
  rw [ownedItems, List.getElem?_append] at h
  have equipped : p.equippedItems.length = p.equipped.length := by simp [equippedItems, carriedFrom]
  split at h
  · simpa only [Nat.zero_add] using place_of_carriedFrom h
  · rename_i beyond
    have place := place_of_carriedFrom h
    rw [equipped] at beyond place
    rwa [Nat.add_sub_cancel' (Nat.le_of_not_lt beyond)] at place

theorem mem_ownedItems_or_gem {p : Player} {gem : Item} (h : gem ∈ p.ownedGems) :
    gem ∈ p.ownedItems ∨ ∃ it ∈ p.ownedItems, gem ∈ it.gems := by
  obtain ⟨it, owned, mem⟩ := List.mem_flatMap.1 (List.mem_filter.1 h).1
  rcases List.mem_cons.1 mem with rfl | mem
  · exact .inl owned
  · exact .inr ⟨it, owned, mem⟩

end Player

namespace Item

variable {root it : Item}

theorem place_of_gems {n : Nat} {gem : Item} (h : it.gems[n]? = some gem) :
    gem.place = .socketed it.place n := by
  simp only [gems, List.getElem?_mapIdx, Option.map_eq_some_iff] at h
  obtain ⟨attributes, -, rfl⟩ := h
  rfl

/-- The item of the family that stands at a place. -/
def locate (root : Item) : Place → Option Item
  | .subject => some root
  | .carried n => root.viewer.ownedItems[n]?
  | .socketed owner n => (root.locate owner).bind fun it => it.gems[n]?

theorem Family.located (subject : root.place = .subject) (h : root.Family it) :
    root.locate it.place = some it := by
  induction h with
  | self => rw [subject, locate]
  | carried known owned =>
    obtain ⟨n, found⟩ := List.mem_iff_getElem?.1 owned
    rw [Player.place_of_ownedItems found, locate, viewer, known, Option.getD_some, found]
  | socketed _ socketed ih =>
    obtain ⟨n, found⟩ := List.mem_iff_getElem?.1 socketed
    rw [place_of_gems found, locate, ih, Option.bind_some, found]

theorem Family.eq_of_place {other : Item} (subject : root.place = .subject) (h : root.Family it)
    (h' : root.Family other) (same : it.place = other.place) : it = other :=
  Option.some.inj (by rw [← h.located subject, same, h'.located subject])

theorem Family.ownedGem {p : Player} {gem : Item} (known : root.player = some p)
    (h : gem ∈ p.ownedGems) : root.Family gem := by
  rcases Player.mem_ownedItems_or_gem h with owned | ⟨it, owned, socketed⟩
  · exact .carried known owned
  · exact .socketed (.carried known owned) socketed

theorem Family.viewed (h : it ∈ root.viewer.ownedItems) : root.Family it := by
  unfold viewer at h
  cases known : root.player with
  | none =>
    simp [known, Player.ownedItems, Player.equippedItems, Player.inventoryItems,
      Player.carriedFrom] at h
  | some p => exact .carried known (by simpa only [known, Option.getD_some] using h)

theorem Family.viewedGem (h : it ∈ root.viewer.ownedGems) : root.Family it := by
  rcases Player.mem_ownedItems_or_gem h with owned | ⟨owner, owned, socketed⟩
  · exact .viewed owned
  · exact .socketed (.viewed owned) socketed

def IsBare (it : Item) : Prop := it.player = none ∧ it.prices = none

theorem isBare_of_carriedFrom {start : Nat} {items : List Attributes}
    (h : it ∈ Player.carriedFrom start items) : it.IsBare := by
  obtain ⟨n, found⟩ := List.mem_iff_getElem?.1 h
  simp only [Player.carriedFrom, List.getElem?_mapIdx, Option.map_eq_some_iff] at found
  obtain ⟨attributes, -, rfl⟩ := found
  exact ⟨rfl, rfl⟩

theorem isBare_of_gems {owner : Item} (h : it ∈ owner.gems) : it.IsBare := by
  obtain ⟨n, found⟩ := List.mem_iff_getElem?.1 h
  simp only [gems, List.getElem?_mapIdx, Option.map_eq_some_iff] at found
  obtain ⟨attributes, -, rfl⟩ := found
  exact ⟨rfl, rfl⟩

theorem Family.eq_or_isBare (h : root.Family it) : it = root ∨ it.IsBare := by
  cases h with
  | self => exact .inl rfl
  | carried _ owned =>
    rcases List.mem_append.1 owned with owned | owned
    · exact .inr (isBare_of_carriedFrom owned)
    · exact .inr (isBare_of_carriedFrom owned)
  | socketed _ socketed => exact .inr (isBare_of_gems socketed)

end Item

def Record.Within (root : Item) : Record → Prop
  | .item it => root.Family it
  | .modifier _ => True
  | .player p => p = root.player ∨ p = none
  | .part _ it => root.Family it

def Mods.Within (root : Item) : Mods → Prop
  | .partition it _ => root.Family it
  | .picked _ => True

end LootFilter
