import LootFilter.Filter.Settings
import LootFilter.Item.Item
import LootFilter.Session.Event

/-!
# The player at hand

Reading the player is costly. A cache reads the player anew only if the last reading is at least an
interval old, and goes on with the player it has if nothing that counts has changed.
-/

namespace LootFilter

namespace Player

def sortedIds (items : List Attributes) : List Int64 :=
  (items.map Attributes.id).mergeSort fun a b => decide (a ≤ b)

/-- Whether two players have the same level, the same aptitudes and items of the same numbers, in
whatever order. -/
def same (p q : Player) : Bool :=
  p.level = q.level && p.aptitudes = q.aptitudes &&
    sortedIds p.equipped = sortedIds q.equipped && sortedIds p.inventory = sortedIds q.inventory

end Player

/-- A player as a cache hands it out. The version tells players apart that are handed out. -/
structure KeptPlayer where
  player : Player
  version : Nat

structure PlayerCache where
  /-- How long a reading is good for, in the unit of the clock. -/
  interval : Nat
  /-- When the player was read last, if that reading still counts. -/
  readAt : Option Nat := none
  kept : Option KeptPlayer := none

namespace PlayerCache

def ofSettings (settings : Settings) : PlayerCache := { interval := settings.refreshInterval }

def fresh? (cache : PlayerCache) (now : Nat) : Option KeptPlayer :=
  match cache.readAt, cache.kept with
  | some readAt, some kept => if now - readAt < cache.interval then some kept else none
  | _, _ => none

def renew (cache : PlayerCache) (player : Player) : KeptPlayer :=
  match cache.kept with
  | some kept => if kept.player.same player then kept else ⟨player, kept.version + 1⟩
  | none => ⟨player, 0⟩

def isChangedBy (cache : PlayerCache) (player : Player) : Bool :=
  match cache.kept with
  | some kept => !kept.player.same player
  | none => true

structure Access where
  kept : KeptPlayer
  isRead : Bool
  events : List Event

/-- The player at time `now`, when reading the player would give `player`. -/
def current (cache : PlayerCache) (now : Nat) (player : Player) : Access × PlayerCache :=
  match cache.fresh? now with
  | some kept => (⟨kept, false, []⟩, cache)
  | none =>
    let kept := cache.renew player
    let events :=
      if cache.isChangedBy player then [.playerChanged player.level player.ownedItems.length]
      else []
    (⟨kept, true, events⟩, { cache with readAt := some now, kept := some kept })

def invalidate (cache : PlayerCache) : PlayerCache := { cache with readAt := none }

end PlayerCache

end LootFilter
