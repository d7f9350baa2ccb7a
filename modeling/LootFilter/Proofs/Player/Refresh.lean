import LootFilter.Player.Cache
import Mathlib.Data.List.Basic

/-!
# When a cache reads the player

What a cache hands out is compared with the calls made before: when it reads the player anew, which
player it hands out, whether that is the one handed out before, and when it reports a change.
-/

namespace LootFilter

namespace Player

variable {p q r : Player}

theorem pairwise_sortedIds (items : List Attributes) : (sortedIds items).Pairwise (· ≤ ·) := by
  have trans (a b c : Int64) : decide (a ≤ b) → decide (b ≤ c) → decide (a ≤ c) := by
    simpa using Int64.le_trans
  have total (a b : Int64) : decide (a ≤ b) || decide (b ≤ a) := by simpa using Int64.le_total a b
  simpa [sortedIds] using List.pairwise_mergeSort trans total (items.map Attributes.id)

theorem sortedIds_perm (items : List Attributes) :
    (sortedIds items).Perm (items.map Attributes.id) :=
  List.mergeSort_perm _ _

theorem sortedIds_eq_iff {items other : List Attributes} : sortedIds items = sortedIds other ↔
    (items.map Attributes.id).Perm (other.map Attributes.id) := by
  constructor
  · intro same
    exact (sortedIds_perm items).symm.trans (same ▸ sortedIds_perm other)
  · intro perm
    refine List.Perm.eq_of_pairwise (fun _ _ _ _ => Int64.le_antisymm) (pairwise_sortedIds items)
      (pairwise_sortedIds other) ?_
    exact (sortedIds_perm items).trans (perm.trans (sortedIds_perm other).symm)

theorem same_iff : p.same q ↔ p.level = q.level ∧ p.aptitudes = q.aptitudes ∧
    (p.equipped.map Attributes.id).Perm (q.equipped.map Attributes.id) ∧
    (p.inventory.map Attributes.id).Perm (q.inventory.map Attributes.id) := by
  simp only [same, Bool.and_eq_true, decide_eq_true_eq, sortedIds_eq_iff, and_assoc]

theorem same_refl (p : Player) : p.same p := same_iff.2 ⟨rfl, rfl, .refl _, .refl _⟩

theorem same_symm (h : p.same q) : q.same p := by
  obtain ⟨level, aptitudes, equipped, inventory⟩ := same_iff.1 h
  exact same_iff.2 ⟨level.symm, aptitudes.symm, equipped.symm, inventory.symm⟩

theorem same_trans (h : p.same q) (h' : q.same r) : p.same r := by
  obtain ⟨level, aptitudes, equipped, inventory⟩ := same_iff.1 h
  obtain ⟨level', aptitudes', equipped', inventory'⟩ := same_iff.1 h'
  exact same_iff.2 ⟨level.trans level', aptitudes.trans aptitudes', equipped.trans equipped',
    inventory.trans inventory'⟩

end Player

namespace PlayerCache

inductive Call where
  /-- The player is asked for at some time. Reading it then would give `player`. -/
  | current (now : Nat) (player : Player)
  | invalidate

/-- A call that was made, and what it came to. -/
inductive Done where
  | current (now : Nat) (player : Player) (access : Access)
  | invalidate

namespace Done

/-- When the call read the player, and which player that was. -/
def read? : Done → Option (Nat × Player)
  | current now player access => if access.isRead then some (now, player) else none
  | invalidate => none

def kept? : Done → Option KeptPlayer
  | current _ _ access => some access.kept
  | invalidate => none

/-- The last reading. Like all lists of calls here, `done` has the latest call first. -/
def lastRead (done : List Done) : Option (Nat × Player) := done.findSome? read?

def sinceRead (done : List Done) : List Done := done.takeWhile (·.read?.isNone)

def handedOut (done : List Done) : List KeptPlayer := done.filterMap kept?

end Done

open Done

/-- The calls made on a cache that was new at first, and the cache after them. -/
structure History where
  done : List Done
  cache : PlayerCache

namespace History

def next (h : History) : Call → History
  | .current now player =>
    let (access, cache) := h.cache.current now player
    ⟨.current now player access :: h.done, cache⟩
  | .invalidate => ⟨.invalidate :: h.done, h.cache.invalidate⟩

def ofCalls (interval : Nat) (calls : List Call) : History :=
  calls.foldl next ⟨[], { interval }⟩

/-- Whether the cache is as the calls leave it. -/
structure Coherent (interval : Nat) (h : History) : Prop where
  interval : h.cache.interval = interval
  kept : h.cache.kept = (handedOut h.done).head?
  readAt : ∀ time, h.cache.readAt = some time ↔
    .invalidate ∉ sinceRead h.done ∧ ∃ player, lastRead h.done = some (time, player)
  same : ∀ kept, h.cache.kept = some kept →
    ∃ time player, lastRead h.done = some (time, player) ∧ kept.player.same player
  versions : ∀ kept, h.cache.kept = some kept → ∀ earlier ∈ handedOut h.done,
    earlier.version ≤ kept.version ∧ (earlier.version = kept.version → earlier = kept)

end History

/-! ## One call -/

section call

variable {cache : PlayerCache} {now : Nat} {player : Player} {kept : KeptPlayer}

theorem fresh?_eq_some : cache.fresh? now = some kept ↔ cache.kept = some kept ∧
    ∃ time, cache.readAt = some time ∧ now - time < cache.interval := by
  unfold fresh?
  cases cache.readAt <;> cases cache.kept <;> simp [and_comm]

theorem current_fresh (h : cache.fresh? now = some kept) :
    cache.current now player = (⟨kept, false, []⟩, cache) := by
  simp only [current, h]

theorem current_stale (h : cache.fresh? now = none) : cache.current now player =
    (⟨cache.renew player, true,
        if cache.isChangedBy player then [.playerChanged player.level player.ownedItems.length]
        else []⟩,
      { cache with readAt := some now, kept := some (cache.renew player) }) := by
  simp only [current, h]

theorem isRead_iff_stale : (cache.current now player).1.isRead ↔ cache.fresh? now = none := by
  cases fresh : cache.fresh? now with
  | some kept => simp [current_fresh fresh]
  | none => simp [current_stale fresh]

theorem renew_same (cache : PlayerCache) (player : Player) :
    (cache.renew player).player.same player := by
  unfold renew
  cases cache.kept with
  | none => exact player.same_refl
  | some kept =>
    dsimp only
    split
    · assumption
    · exact player.same_refl

end call

/-! ## All calls -/

namespace History

variable {interval : Nat} {h : History}

theorem coherent_new (interval : Nat) : Coherent interval ⟨[], { interval }⟩ where
  interval := rfl
  kept := rfl
  readAt := by simp [lastRead]
  same := nofun
  versions := nofun

theorem Coherent.invalidate (coherent : h.Coherent interval) :
    (h.next .invalidate).Coherent interval where
  interval := coherent.interval
  kept := coherent.kept
  readAt := by simp [next, PlayerCache.invalidate, sinceRead, Done.read?]
  same := coherent.same
  versions := coherent.versions

theorem Coherent.fresh {now : Nat} {player : Player} {kept : KeptPlayer}
    (coherent : h.Coherent interval) (fresh : h.cache.fresh? now = some kept) :
    (h.next (.current now player)).Coherent interval := by
  obtain ⟨known, -⟩ := fresh?_eq_some.1 fresh
  simp only [next, current_fresh fresh]
  refine ⟨coherent.interval, known, ?_, coherent.same, fun kept' known' => ?_⟩
  · simpa [sinceRead, lastRead, Done.read?] using coherent.readAt
  · obtain rfl : kept = kept' := Option.some.inj (known.symm.trans known')
    exact List.forall_mem_cons.2 ⟨⟨Nat.le_refl _, fun _ => rfl⟩, coherent.versions kept known⟩

theorem Coherent.stale {now : Nat} {player : Player} (coherent : h.Coherent interval)
    (stale : h.cache.fresh? now = none) : (h.next (.current now player)).Coherent interval := by
  simp only [next, current_stale stale]
  refine ⟨coherent.interval, rfl, ?_, ?_, ?_⟩
  · simp [sinceRead, lastRead, Done.read?]
  · rintro kept ⟨⟩
    exact ⟨now, player, rfl, renew_same h.cache player⟩
  · rintro kept ⟨⟩
    refine List.forall_mem_cons.2 ⟨⟨Nat.le_refl _, fun _ => rfl⟩, ?_⟩
    unfold renew
    cases known : h.cache.kept with
    | none =>
      have first : handedOut h.done = [] :=
        List.head?_eq_none_iff.1 (coherent.kept.symm.trans known)
      intro earlier (mem : earlier ∈ handedOut h.done)
      rw [first] at mem
      cases mem
    | some kept =>
      have versions := coherent.versions kept known
      dsimp only
      split
      · exact versions
      · -- The new version is greater than every one before.
        intro earlier mem
        obtain ⟨le, -⟩ := versions earlier mem
        exact ⟨Nat.le_succ_of_le le, fun same => absurd same (Nat.ne_of_lt (Nat.lt_succ_of_le le))⟩

theorem Coherent.next (coherent : h.Coherent interval) (call : Call) :
    (h.next call).Coherent interval := by
  cases call with
  | invalidate => exact coherent.invalidate
  | current now player =>
    cases fresh : h.cache.fresh? now with
    | some kept => exact coherent.fresh fresh
    | none => exact coherent.stale fresh

theorem coherent_ofCalls (interval : Nat) (calls : List Call) :
    (ofCalls interval calls).Coherent interval :=
  calls.foldlRecOn _ (coherent_new interval) fun _ coherent call _ => coherent.next call

/-! ## The next call -/

variable {now : Nat} {player : Player}

theorem Coherent.isRead_iff (coherent : h.Coherent interval) :
    (h.cache.current now player).1.isRead ↔ handedOut h.done = [] ∨
      .invalidate ∈ sinceRead h.done ∨
      ∃ time read, lastRead h.done = some (time, read) ∧ interval ≤ now - time := by
  rw [isRead_iff_stale, Option.eq_none_iff_forall_ne_some]
  constructor
  · intro stale
    by_contra otherwise
    obtain ⟨some, valid, young⟩ := by simpa only [not_or] using otherwise
    obtain ⟨kept, handed⟩ := Option.ne_none_iff_exists'.1 (mt List.head?_eq_none_iff.1 some)
    have known : h.cache.kept = _ := coherent.kept.trans handed
    obtain ⟨time, read, last, -⟩ := coherent.same kept known
    refine stale kept (fresh?_eq_some.2 ⟨known, time, (coherent.readAt time).2 ⟨valid, read, last⟩, ?_⟩)
    rw [coherent.interval]
    exact Nat.lt_of_not_le fun old => young ⟨time, read, last, old⟩
  · intro reason kept fresh
    obtain ⟨known, time, readAt, young⟩ := fresh?_eq_some.1 fresh
    obtain ⟨valid, read, last⟩ := (coherent.readAt time).1 readAt
    rcases reason with first | invalid | ⟨time', read', last', old⟩
    · rw [coherent.kept, first] at known
      cases known
    · exact valid invalid
    · rw [last] at last'
      cases last'
      rw [coherent.interval] at young
      exact Nat.not_le_of_lt young old

theorem Coherent.version_eq_iff (coherent : h.Coherent interval) {previous : KeptPlayer}
    (handed : (handedOut h.done).head? = some previous) :
    (h.cache.current now player).1.kept.version = previous.version ↔
      (h.cache.current now player).1.isRead = false ∨
        ∃ time read, lastRead h.done = some (time, read) ∧ player.same read := by
  have known : h.cache.kept = some previous := coherent.kept.trans handed
  cases fresh : h.cache.fresh? now with
  | some kept =>
    obtain rfl : kept = previous := Option.some.inj ((fresh?_eq_some.1 fresh).1.symm.trans known)
    simp [current_fresh fresh]
  | none =>
    obtain ⟨time, read, last, same⟩ := coherent.same previous known
    have read_same : previous.player.same player ↔ player.same read :=
      ⟨fun same' => Player.same_trans (Player.same_symm same') same,
        fun same' => Player.same_trans same (Player.same_symm same')⟩
    simp only [current_stale fresh, renew, known, last]
    split
    · rename_i unchanged
      simpa using read_same.1 unchanged
    · rename_i changed
      simpa [read_same] using changed

theorem Coherent.events_eq (coherent : h.Coherent interval) :
    (h.cache.current now player).1.events =
      if (h.cache.current now player).1.kept.version ∈
        (handedOut h.done).map KeptPlayer.version then []
      else [.playerChanged player.level player.ownedItems.length] := by
  cases fresh : h.cache.fresh? now with
  | some kept =>
    have handed := coherent.kept.symm.trans (fresh?_eq_some.1 fresh).1
    have old := List.mem_map_of_mem (f := KeptPlayer.version) (List.mem_of_head? handed)
    rw [current_fresh fresh, if_pos old]
  | none =>
    rw [current_stale fresh]
    dsimp only
    cases known : h.cache.kept with
    | none =>
      have first : handedOut h.done = [] :=
        List.head?_eq_none_iff.1 (coherent.kept.symm.trans known)
      simp [isChangedBy, known, first]
    | some kept =>
      have handed := coherent.kept.symm.trans known
      have old := List.mem_map_of_mem (f := KeptPlayer.version) (List.mem_of_head? handed)
      by_cases unchanged : kept.player.same player
      · have renewed : h.cache.renew player = kept := by simp only [renew, known, if_pos unchanged]
        rw [renewed, if_pos old]
        simp [isChangedBy, known, unchanged]
      · have version : (h.cache.renew player).version = kept.version + 1 := by
          simp only [renew, known, if_neg unchanged]
        have new : kept.version + 1 ∉ (handedOut h.done).map KeptPlayer.version := by
          intro mem
          obtain ⟨earlier, mem, same⟩ := List.mem_map.1 mem
          have le := (coherent.versions kept known earlier mem).1
          omega
        rw [version, if_neg new]
        simp [isChangedBy, known, unchanged]

end History

open History

/-- On any cache, after any calls, the player is read by the first request, by one after the cache
was told that its player no longer counts, and by one that comes an interval after the last reading.
The player handed out is the same as the one read last. It is the very one handed out before if
nothing is read, or the player read is the same as the one read before; else it is none of those
handed out before, and that is reported. -/
theorem current_after (interval : Nat) (calls : List Call) (now : Nat) (player : Player) :
    let h := ofCalls interval calls
    let access := (h.cache.current now player).1
    (access.isRead ↔ handedOut h.done = [] ∨ .invalidate ∈ sinceRead h.done ∨
      ∃ time read, lastRead h.done = some (time, read) ∧ interval ≤ now - time) ∧
    (∃ time read, lastRead (.current now player access :: h.done) = some (time, read) ∧
      access.kept.player.same read) ∧
    (∀ previous, (handedOut h.done).head? = some previous →
      (access.kept.version = previous.version ↔ access.isRead = false ∨
        ∃ time read, lastRead h.done = some (time, read) ∧ player.same read)) ∧
    (∀ earlier ∈ handedOut h.done, earlier.version = access.kept.version →
      earlier = access.kept) ∧
    access.events = if access.kept.version ∈ (handedOut h.done).map KeptPlayer.version then []
      else [.playerChanged player.level player.ownedItems.length] := by
  intro h access
  have coherent : h.Coherent interval := coherent_ofCalls interval calls
  have after := coherent.next (.current now player)
  have known : (h.next (.current now player)).cache.kept = some access.kept := after.kept
  refine ⟨coherent.isRead_iff, after.same access.kept known, ?_, ?_, coherent.events_eq⟩
  · exact fun previous handed => coherent.version_eq_iff handed
  · exact fun earlier mem => (after.versions access.kept known earlier (.tail _ mem)).2

/-- A player who has the same items in another order is read, but not handed out. -/
theorem current_after_reordered :
    let first : Player := { inventory := [{ id := 1 }, { id := 2 }] }
    let h := ofCalls 10 [.current 0 first, .invalidate]
    let access := (h.cache.current 3 { inventory := [{ id := 2 }, { id := 1 }] }).1
    (handedOut h.done).head? = some ⟨first, 0⟩ ∧ ⟨first, 0⟩ ∈ handedOut h.done ∧
      access.isRead ∧ access.kept = ⟨first, 0⟩ ∧ access.events = [] := by
  intro first h access
  have previous : (handedOut h.done).head? = some ⟨first, 0⟩ := rfl
  have earlier := List.mem_of_head? previous
  obtain ⟨isRead, -, version, identity, events⟩ :=
    current_after 10 [.current 0 first, .invalidate] 3 { inventory := [{ id := 2 }, { id := 1 }] }
  have read : access.isRead := isRead.2 (.inr (.inl (.head _)))
  have reordered : Player.same { inventory := [{ id := 2 }, { id := 1 }] } first :=
    Player.same_iff.2 ⟨rfl, rfl, .refl _, .swap _ _ _⟩
  have old : access.kept.version = 0 := (version _ previous).2 (.inr ⟨0, first, rfl, reordered⟩)
  refine ⟨previous, earlier, read, (identity _ earlier old.symm).symm, events.trans (if_pos ?_)⟩
  exact List.mem_map.2 ⟨_, earlier, old.symm⟩

end PlayerCache

end LootFilter
