import LootFilter.Proofs.Player.Refresh
import LootFilter.Proofs.Session.Kept

/-!
# Ownership after a refresh

A cache compares players by the numbers of their items, so the player that it hands out can own
other items than the one just read. Whether an item is one that the player lacks is the same with
both just if they own items of the same attributes.
-/

namespace LootFilter

/-! ## Criteria -/

/-- What a criterion can say of an item from what is known of it. Where the item stands tells
nothing. -/
abbrev Judgement := Attributes → Option Player → Option PriceSource → Bool

def Item.judge (judgement : Judgement) (it : Item) : Bool :=
  judgement it.attributes it.player it.prices

/-- Whether the criterion fails on no item of the family, and judges each as `judgement` does. -/
def Item.Judged (root : Item) (criterion : Item → EvalM Bool) (judgement : Judgement) : Prop :=
  ∀ it, root.Family it → Session.Finds root (criterion it).run (.ok (it.judge judgement))

def Item.seenBy (it : Item) (p : Player) : Item := { it with player := some p }

namespace Session

variable {α β : Type} {root : Item}

theorem Finds.bind_ok {e : EvalM α} {f : α → EvalM β} {a : α} {answer : Except Fault β}
    (first : Finds root e.run (.ok a)) (next : Finds root (f a).run answer) :
    Finds root (e >>= f).run answer := by
  rw [ExceptT.run_bind]
  exact first.bind next

theorem finds_anyM {test : α → EvalM Bool} {p : α → Bool} {as : List α}
    (h : ∀ a ∈ as, Finds root (test a).run (.ok (p a))) :
    Finds root (as.anyM test).run (.ok (as.any p)) := by
  induction as with
  | nil => exact .pure _
  | cons a as ih =>
    obtain ⟨first, others⟩ := List.forall_mem_cons.1 h
    rw [List.anyM_cons, List.any_cons]
    refine first.bind_ok ?_
    cases p a with
    | true => exact .pure _
    | false => exact ih others

end Session

namespace Item

variable {root : Item} {criterion : Item → EvalM Bool} {judgement : Judgement}

theorem Judged.isUnowned (judged : root.Judged criterion judgement) {owned : List Item}
    (family : ∀ it ∈ owned, root.Family it) :
    Session.Finds root (root.isUnowned owned criterion).run
      (.ok (root.judge judgement && !owned.any (judge judgement))) := by
  unfold Item.isUnowned
  refine (judged root .self).bind_ok ?_
  cases root.judge judgement with
  | false => exact .pure _
  | true =>
    have others := Session.finds_anyM fun it mem => judged it (family it mem)
    exact others.bind_ok (.pure _)

theorem Judged.isUnownedItem (judged : root.Judged criterion judgement) :
    Session.Finds root (root.isUnownedItem criterion).run
      (.ok (root.judge judgement && !root.viewer.ownedItems.any (judge judgement))) :=
  judged.isUnowned fun _ => .viewed

theorem Judged.isUnownedGem (judged : root.Judged criterion judgement) :
    Session.Finds root (root.isUnownedGem criterion).run
      (.ok (root.isGem && (root.judge judgement &&
        !root.viewer.ownedGems.any (judge judgement)))) := by
  unfold Item.isUnownedGem
  cases root.isGem with
  | false => exact .pure _
  | true => exact judged.isUnowned fun _ => .viewedGem

end Item

/-! ## What players own -/

theorem any_mapIdx {α β : Type} {f : Nat → α → β} {p : β → Bool} {q : α → Bool}
    (h : ∀ n a, p (f n a) = q a) (as : List α) : (as.mapIdx f).any p = as.any q := by
  induction as generalizing f with
  | nil => rfl
  | cons a as ih =>
    rw [List.mapIdx_cons, List.any_cons, List.any_cons, h, ih fun n => h (n + 1)]

namespace Player

def owned (p : Player) : List Attributes := p.equipped ++ p.inventory

theorem any_ownedItems {test : Item → Bool} {q : Attributes → Bool}
    (h : ∀ n a, test { place := .carried n, attributes := a } = q a) (p : Player) :
    p.ownedItems.any test = p.owned.any q := by
  rw [ownedItems, owned, List.any_append, List.any_append]
  exact congrArg₂ _ (any_mapIdx (fun n => h _) p.equipped) (any_mapIdx (fun n => h _) p.inventory)

def isGem (a : Attributes) : Bool := Item.isGem { place := .subject, attributes := a }

theorem any_ownedGems {test : Item → Bool} {q : Attributes → Bool}
    (h : ∀ place a, test { place, attributes := a } = q a) (p : Player) :
    p.ownedGems.any test =
      p.owned.any fun a => (a :: a.sockets.gems).any fun gem => isGem gem && q gem := by
  rw [ownedGems, List.any_filter, List.any_flatMap]
  refine any_ownedItems (fun n a => ?_) p
  have gem (place : Place) (a : Attributes) :
      (Item.isGem { place, attributes := a } && test { place, attributes := a }) =
        (isGem a && q a) := congrArg (isGem a && ·) (h place a)
  rw [List.any_cons, List.any_cons, gem]
  exact congrArg _ (any_mapIdx (fun n => gem _) a.sockets.gems)

variable {p q : Player}

/-- Whether items of the same number, worn or carried by both players, have the same attributes. -/
structure SameContents (p q : Player) : Prop where
  equipped : ∀ a ∈ p.equipped, ∀ b ∈ q.equipped, a.id = b.id → a = b
  inventory : ∀ a ∈ p.inventory, ∀ b ∈ q.inventory, a.id = b.id → a = b

theorem mem_iff_of_perm {items other : List Attributes}
    (perm : (items.map Attributes.id).Perm (other.map Attributes.id))
    (contents : ∀ a ∈ items, ∀ b ∈ other, a.id = b.id → a = b) (a : Attributes) :
    a ∈ items ↔ a ∈ other := by
  constructor
  · intro mem
    obtain ⟨b, mem', same⟩ := List.mem_map.1 (perm.subset (List.mem_map_of_mem mem))
    exact contents a mem b mem' same.symm ▸ mem'
  · intro mem
    obtain ⟨b, mem', same⟩ := List.mem_map.1 (perm.symm.subset (List.mem_map_of_mem mem))
    exact contents b mem' a mem same ▸ mem'

theorem mem_owned_iff (same : p.same q) (contents : p.SameContents q) (a : Attributes) :
    a ∈ p.owned ↔ a ∈ q.owned := by
  obtain ⟨-, -, equipped, inventory⟩ := same_iff.1 same
  rw [owned, owned, List.mem_append, List.mem_append, mem_iff_of_perm equipped contents.equipped,
    mem_iff_of_perm inventory contents.inventory]

/-- Whether it makes no difference to the ownership of any item which of the players looks at it, for
a criterion that says the same of the item itself with both. -/
def OwnAlike (p q : Player) : Prop :=
  ∀ (it : Item) (criterion : Item → EvalM Bool) (judgement : Judgement),
    (it.seenBy p).Judged criterion judgement → (it.seenBy q).Judged criterion judgement →
    (it.seenBy p).judge judgement = (it.seenBy q).judge judgement →
    (∃ b, Session.Finds (it.seenBy p) ((it.seenBy p).isUnownedItem criterion).run (.ok b) ∧
      Session.Finds (it.seenBy q) ((it.seenBy q).isUnownedItem criterion).run (.ok b)) ∧
    ∃ b, Session.Finds (it.seenBy p) ((it.seenBy p).isUnownedGem criterion).run (.ok b) ∧
      Session.Finds (it.seenBy q) ((it.seenBy q).isUnownedGem criterion).run (.ok b)

theorem any_owned_congr (same : ∀ a, a ∈ p.owned ↔ a ∈ q.owned) (test : Attributes → Bool) :
    p.owned.any test = q.owned.any test := by
  rw [Bool.eq_iff_iff, List.any_eq_true, List.any_eq_true]
  simp only [same]

theorem ownAlike_of_mem (same : ∀ a, a ∈ p.owned ↔ a ∈ q.owned) : p.OwnAlike q := by
  intro it criterion judgement judged judged' itself
  have judge (place : Place) (a : Attributes) :
      Item.judge judgement { place, attributes := a } = judgement a none none := rfl
  have items : p.ownedItems.any (Item.judge judgement) = q.ownedItems.any (Item.judge judgement) := by
    rw [any_ownedItems fun n => judge _, any_ownedItems fun n => judge _, any_owned_congr same]
  have gems : p.ownedGems.any (Item.judge judgement) = q.ownedGems.any (Item.judge judgement) := by
    rw [any_ownedGems judge, any_ownedGems judge, any_owned_congr same]
  refine ⟨⟨_, judged.isUnownedItem, ?_⟩, _, judged.isUnownedGem, ?_⟩
  · have answer := judged'.isUnownedItem
    rw [← itself] at answer
    change Session.Finds _ _ (Except.ok (_ && !q.ownedItems.any _)) at answer
    rwa [← items] at answer
  · have answer := judged'.isUnownedGem
    rw [← itself] at answer
    change Session.Finds _ _ (Except.ok (_ && (_ && !q.ownedGems.any _))) at answer
    rwa [← gems] at answer

theorem mem_of_ownAlike (alike : p.OwnAlike q) (a : Attributes) : a ∈ p.owned ↔ a ∈ q.owned := by
  classical
  -- The item and the criterion ask whether `a` is owned.
  let judgement : Judgement := fun b _ _ => decide (b = a)
  let criterion (it : Item) : EvalM Bool := pure (it.judge judgement)
  let it : Item := { place := .subject, attributes := a }
  have judged (p : Player) : (it.seenBy p).Judged criterion judgement := fun _ _ => .pure _
  have fresh (root : Item) : Session.Faithful root {} := Session.faithful_of_memos fun _ => rfl
  obtain ⟨⟨b, ofP, ofQ⟩, -⟩ := alike it criterion judgement (judged p) (judged q) rfl
  have answerP := ((judged p).isUnownedItem {} (fresh _)).1.symm.trans (ofP {} (fresh _)).1
  have answerQ := ((judged q).isUnownedItem {} (fresh _)).1.symm.trans (ofQ {} (fresh _)).1
  have judge (n : Nat) (b : Attributes) :
      Item.judge judgement { place := .carried n, attributes := b } = decide (b = a) := rfl
  have same := Except.ok.inj (answerP.trans answerQ.symm)
  change (decide (a = a) && !p.ownedItems.any _) = (decide (a = a) && !q.ownedItems.any _) at same
  rw [any_ownedItems judge, any_ownedItems judge, decide_eq_true rfl] at same
  have any_iff (p : Player) : (p.owned.any fun b => decide (b = a)) ↔ a ∈ p.owned := by simp
  rw [← any_iff, ← any_iff, Bool.not_inj same]

theorem ownAlike_iff : p.OwnAlike q ↔ ∀ a, a ∈ p.owned ↔ a ∈ q.owned :=
  ⟨mem_of_ownAlike, ownAlike_of_mem⟩

end Player

namespace PlayerCache

open History

/-- Whenever the player is read, the player handed out is the same as the one read. All items are
owned or lacked alike with both just if both own items of the same attributes, and so if items of
the same number have the same attributes. -/
theorem refreshed_ownership (interval : Nat) (calls : List Call) (now : Nat) (player : Player) :
    let access := ((ofCalls interval calls).cache.current now player).1
    access.isRead →
      access.kept.player.same player ∧
      (access.kept.player.OwnAlike player ↔
        ∀ a, a ∈ access.kept.player.owned ↔ a ∈ player.owned) ∧
      (access.kept.player.SameContents player → access.kept.player.OwnAlike player) := by
  intro access isRead
  have renewed : access.kept = (ofCalls interval calls).cache.renew player :=
    congrArg (·.1.kept) (current_stale (isRead_iff_stale.1 isRead))
  have same : access.kept.player.same player := renewed ▸ renew_same _ player
  exact ⟨same, Player.ownAlike_iff,
    fun contents => Player.ownAlike_iff.2 (Player.mem_owned_iff same contents)⟩

/-- The player has the same item as before, but its name and the name of its gem have changed. The
player handed out has no item of the new name. And if the player's items are the same as before in
another order, a criterion that looks at the first of them tells which player was handed out. -/
theorem refreshed_ownership_unnoticed :
    let gem (name : String) : Attributes := { id := 6, baseName := name, gem := some {} }
    let renamed (name : String) : Player :=
      { inventory := [{ id := 5, baseName := name, sockets := { gems := [gem name] } }] }
    let lined (ids : List Int64) : Player := { inventory := ids.map fun id => { id } }
    let kept (before now : Player) : Player :=
      ((ofCalls 0 [.current 0 before]).cache.current 0 now).1.kept.player
    let isRead (before now : Player) : Bool :=
      ((ofCalls 0 [.current 0 before]).cache.current 0 now).1.isRead
    let it : Item := { place := .subject, attributes := gem "b" }
    let named (it : Item) : EvalM Bool := pure (it.baseName = "b")
    let ahead (it : Item) : EvalM Bool := pure (it.viewer.inventory.head?.any (·.id = 1))
    let answer (e : EvalM Bool) : Except Fault Bool := (e.run.run {}).1
    let itemWith (p : Player) (criterion : Item → EvalM Bool) : Except Fault Bool :=
      answer ((it.seenBy p).isUnownedItem criterion)
    let gemWith (p : Player) (criterion : Item → EvalM Bool) : Except Fault Bool :=
      answer ((it.seenBy p).isUnownedGem criterion)
    (isRead (renamed "a") (renamed "b") ∧
      itemWith (kept (renamed "a") (renamed "b")) named = .ok true ∧
      itemWith (renamed "b") named = .ok false ∧
      gemWith (kept (renamed "a") (renamed "b")) named = .ok true ∧
      gemWith (renamed "b") named = .ok false) ∧
    isRead (lined [1, 2]) (lined [2, 1]) ∧
      (kept (lined [1, 2]) (lined [2, 1])).SameContents (lined [2, 1]) ∧
      itemWith (kept (lined [1, 2]) (lined [2, 1])) ahead = .ok true ∧
      itemWith (lined [2, 1]) ahead = .ok false := by
  intro gem renamed lined kept isRead it named ahead answer itemWith gemWith
  have kept_of_same {before now : Player} (same : before.same now) : kept before now = before :=
    congrArg KeptPlayer.player (if_pos same)
  refine ⟨?_, ?_⟩
  · have unnoticed : kept (renamed "a") (renamed "b") = renamed "a" :=
      kept_of_same (Player.same_iff.2 ⟨rfl, rfl, .refl _, .refl _⟩)
    rw [unnoticed]
    exact ⟨rfl, rfl, rfl, rfl, rfl⟩
  · have unnoticed : kept (lined [1, 2]) (lined [2, 1]) = lined [1, 2] :=
      kept_of_same (Player.same_iff.2 ⟨rfl, rfl, .refl _, .swap _ _ _⟩)
    rw [unnoticed]
    exact ⟨rfl, ⟨by simp [lined], by simp [lined]⟩, rfl, rfl⟩

/-- The player handed out carries the same items as the player read, in another order. -/
theorem refreshed_ownership_reordered :
    let carrying (ids : List Int64) : Player := { inventory := ids.map fun id => { id } }
    let calls : List Call := [.current 0 (carrying [1, 2]), .invalidate]
    let access := ((ofCalls 10 calls).cache.current 3 (carrying [2, 1])).1
    access.isRead ∧ access.kept.player.SameContents (carrying [2, 1]) ∧
      access.kept.player.OwnAlike (carrying [2, 1]) := by
  intro carrying calls access
  have isRead : access.isRead := rfl
  have same : (carrying [1, 2]).same (carrying [2, 1]) :=
    Player.same_iff.2 ⟨rfl, rfl, .refl _, .swap _ _ _⟩
  have contents : access.kept.player.SameContents (carrying [2, 1]) := by
    have kept : access.kept.player = carrying [1, 2] := congrArg KeptPlayer.player (if_pos same)
    rw [kept]
    exact ⟨by simp [carrying], by simp [carrying]⟩
  exact ⟨isRead, contents, (refreshed_ownership 10 calls 3 (carrying [2, 1]) isRead).2.2 contents⟩

end PlayerCache

end LootFilter
