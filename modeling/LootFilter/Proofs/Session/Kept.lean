import LootFilter.Proofs.Value.Typed

/-!
# What is kept with items

What is kept with the items of a family is what would be found anew; only answers about lists of
tags may be others. So everything but such answers is found to be the same at any time.
-/

namespace LootFilter

/-- What the item is worth to those who can tell; zero if nobody can. -/
def Item.value (it : Item) : Float := (it.prices.bind fun price => price it.attributes).getD 0.0

/-- What is reported when the value of the item has to be found. -/
def Item.warnings (it : Item) : List Event :=
  match it.prices.bind fun price => price it.attributes with
  | some _ => []
  | none => [.unpriced it.baseName]

namespace Mods

/-- The sum of the modifiers, whatever is kept. -/
def sum (mods : Mods) : StatTable Int64 := Modifier.sum (mods.toList.map PlacedModifier.modifier)

theorem toList_modifiers (it : Item) (p : Partition) :
    (partition it p).toList.map PlacedModifier.modifier = it.partition p := by
  refine List.ext_getElem? fun n => ?_
  rw [toList, Item.shelf, List.getElem?_map, List.getElem?_mapIdx, Option.map_map]
  exact congrFun Option.map_id _

theorem sum_partition (it : Item) (p : Partition) : (partition it p).sum = it.partitionSum p := by
  rw [sum, toList_modifiers, Item.partitionSum]

end Mods

/-- Whether what is kept is what would be found anew. -/
structure Memo.Faithful (it : Item) (memo : Memo) : Prop where
  tags : ∀ query : TagQuery, ¬query.IsAboutList → ∀ b, memo.tags.lookup query.key = some b →
    b = query.answer it
  sums : ∀ p sum, memo.sums.sum? p = some sum → sum = it.partitionSum p
  price : ∀ x, memo.price = some x → x = it.value

theorem Memo.initial_faithful (it : Item) : (initial it).Faithful it where
  tags _ _ _ found := nomatch found
  sums p sum found := by
    unfold initial at found
    split at found
    · simp only [PartitionSums.insert] at found
      split at found
      · rename_i same
        cases found
        rw [same, Item.stats]
      · cases found
    · cases found
  price _ found := nomatch found

namespace Session

variable {α β : Type} {root it other : Item} {s : Session} {memo : Memo}

def Faithful (root : Item) (s : Session) : Prop :=
  ∀ it, root.Family it → (s.memo it).Faithful it

theorem memo_setMemo : (s.setMemo it memo).memo it = memo := by simp [Session.memo, setMemo]

theorem memo_setMemo_of_ne (h : other.place ≠ it.place) :
    (s.setMemo it memo).memo other = s.memo other := by simp [Session.memo, setMemo, h]

theorem faithful_of_memos (h : ∀ it, s.memos it = none) : s.Faithful root := by
  intro it _
  rw [Session.memo, h, Option.getD_none]
  exact Memo.initial_faithful it

section steps

variable (subject : root.place = .subject)

include subject

theorem Faithful.setMemo (h : s.Faithful root) (family : root.Family it) (kept : memo.Faithful it) :
    (s.setMemo it memo).Faithful root := by
  intro other family'
  by_cases same : other.place = it.place
  · obtain rfl := Item.Family.eq_of_place subject family' family same
    rwa [memo_setMemo]
  · rw [memo_setMemo_of_ne same]
    exact h other family'

end steps

/-! ## Finding -/

/-- A computation that answers `a` in every faithful session, and leaves it faithful. -/
def Finds (root : Item) (e : SessionM α) (a : α) : Prop :=
  ∀ s, Faithful root s → (e.run s).1 = a ∧ Faithful root (e.run s).2

theorem Finds.pure (a : α) : Finds root (pure a) a := fun _ h => ⟨rfl, h⟩

theorem Finds.bind {e : SessionM α} {f : α → SessionM β} {a : α} {b : β} (first : Finds root e a)
    (next : Finds root (f a) b) : Finds root (e >>= f) b := by
  intro s h
  obtain ⟨answer, after⟩ := first s h
  have rest := next _ after
  rw [← answer] at rest
  exact rest

theorem Finds.map {e : SessionM α} {a : α} (h : Finds root e a) (f : α → β) :
    Finds root (f <$> e) (f a) := by
  rw [map_eq_pure_bind]
  exact h.bind (.pure _)

theorem finds_note (request : Request) : Finds root (note request) () := fun _ h => ⟨rfl, h⟩

theorem finds_display (v : Value) : Finds root (display v) () := fun _ h => ⟨rfl, h⟩

theorem sumPartition_hit {p : Partition} {sum : StatTable Int64}
    (found : (s.memo it).sums.sum? p = some sum) :
    (sumPartition it p).run s = (sum, s.setMemo it (s.memo it)) := by
  change sumPartition it p s = _
  unfold sumPartition PartitionSums.getOrInsert
  simp only [found]

theorem sumPartition_miss {p : Partition} (found : (s.memo it).sums.sum? p = none) :
    (sumPartition it p).run s = (it.partitionSum p, s.setMemo it
      { s.memo it with sums := (s.memo it).sums.insert p (it.partitionSum p) }) := by
  change sumPartition it p s = _
  unfold sumPartition PartitionSums.getOrInsert
  simp only [found]

theorem askPrice_run : (askPrice it).run s = (it.prices.bind fun price => price it.attributes,
    { s with priceQueries := s.priceQueries + if it.prices.isSome then 1 else 0 }) := by
  change askPrice it s = _
  unfold askPrice
  cases it.prices <;> rfl

theorem estimateValue_hit {x : Float} (h : (s.memo it).price = some x) :
    (estimateValue it).run s = (x, s) := by
  change estimateValue it s = _
  unfold estimateValue
  simp only [bind, StateT.bind, get, getThe, MonadStateOf.get, StateT.get]
  simp only [pure, h]
  rfl

/-- The session in which the value of the item was found, and is not kept yet. -/
def priced (s : Session) (it : Item) : Session :=
  { s with
    priceQueries := s.priceQueries + if it.prices.isSome then 1 else 0
    log := s.log ++ it.warnings }

theorem estimateValue_miss (h : (s.memo it).price = none) : (estimateValue it).run s =
    (it.value, (s.priced it).setMemo it { s.memo it with price := some it.value }) := by
  have asked : askPrice it s = _ := askPrice_run
  change estimateValue it s = _
  unfold estimateValue priced Item.value Item.warnings
  simp only [bind, StateT.bind, get, getThe, MonadStateOf.get, StateT.get]
  simp only [pure, h]
  simp only [bind, StateT.bind, asked]
  cases it.prices.bind fun price => price it.attributes with
  | none => rfl
  | some x =>
    rw [List.append_nil]
    rfl

section family

variable (subject : root.place = .subject) (family : root.Family it)

include subject family

theorem faithful_askTags (query : TagQuery) (h : s.Faithful root) :
    Faithful root ((askTags it query).run s).2 := by
  cases found : (s.memo it).tags.lookup query.key with
  | some b => rwa [TagQuery.askTags_hit found]
  | none =>
    rw [TagQuery.askTags_miss found]
    have kept := h it family
    refine h.setMemo subject family ⟨fun other single b found => ?_, kept.sums, kept.price⟩
    rw [List.lookup_cons] at found
    split at found
    · -- The new answer may be that of another query with the key.
      rename_i same
      cases found
      exact (TagQuery.answer_eq_of_key single (beq_iff_eq.1 same)).symm
    · exact kept.tags other single b found

theorem finds_askTags {query : TagQuery} (single : ¬query.IsAboutList) :
    Finds root (askTags it query) (query.answer it) := by
  intro s h
  refine ⟨?_, faithful_askTags subject family query h⟩
  rw [TagQuery.askTags_answer]
  cases found : (s.memo it).tags.lookup query.key with
  | some b => exact (h it family).tags query single b found
  | none => rfl

theorem finds_sumPartition (p : Partition) :
    Finds root (sumPartition it p) (it.partitionSum p) := by
  intro s h
  have kept := h it family
  cases found : (s.memo it).sums.sum? p with
  | some sum =>
    rw [sumPartition_hit found]
    exact ⟨kept.sums p sum found, h.setMemo subject family kept⟩
  | none =>
    rw [sumPartition_miss found]
    refine ⟨rfl, h.setMemo subject family ⟨kept.tags, fun q sum found => ?_, kept.price⟩⟩
    simp only [PartitionSums.insert] at found
    split at found
    · rename_i same
      cases found
      rw [same]
    · exact kept.sums q sum found

theorem finds_estimateValue : Finds root (estimateValue it) it.value := by
  intro s h
  have kept := h it family
  cases found : (s.memo it).price with
  | some x =>
    rw [estimateValue_hit found]
    exact ⟨kept.price x found, h⟩
  | none =>
    rw [estimateValue_miss found]
    have faithful : (s.priced it).Faithful root := h
    refine ⟨rfl, faithful.setMemo subject family ⟨kept.tags, kept.sums, fun x found => ?_⟩⟩
    exact (Option.some.inj found).symm

end family

/-! ## Asking -/

section asking

variable (subject : root.place = .subject)

include subject

theorem finds_reading {ty : Ty} {a : α} {reading : Reading α ty} (stays : reading.Stays root a) :
    ∃ v, Finds root (reading.run a) v := by
  cases reading with
  | allStats f => exact ⟨_, (finds_sumPartition subject stays .itemMods).map _⟩
  | price f => exact ⟨_, (finds_estimateValue subject stays).map _⟩
  | _ => exact ⟨_, .pure _⟩

theorem finds_read {r : Record} {field : RecordField r.kind.Subject} (within : r.Within root)
    (mem : field ∈ r.kind.fields) : ∃ v, Finds root (r.read field) v := by
  obtain ⟨v, finds⟩ := finds_reading subject (Record.fields_stay within field mem)
  exact ⟨v, (finds_note _).bind finds⟩

theorem finds_sumMods {mods : Mods} (within : mods.Within root) :
    Finds root (sumMods mods) mods.sum := by
  cases mods with
  | partition it p =>
    rw [Mods.sum_partition]
    exact (finds_note _).bind (finds_sumPartition subject within p)
  | picked ms => exact (finds_note _).bind (.pure _)

end asking

end Session

namespace Conduct

variable {C : Conduct} {α : Type} {P : α → Prop} {e : EvalM α}

theorem Allows.faithful (subject : C.root.place = .subject) {e : SessionM α} (h : C.Allows e)
    {s : Session} (faithful : s.Faithful C.root) : (e.run s).2.Faithful C.root := by
  cases h with
  | tags family _ => exact Session.faithful_askTags subject family _ faithful
  | read within mem =>
    obtain ⟨v, finds⟩ := Session.finds_read subject within mem
    exact (finds s faithful).2
  | sum within => exact (Session.finds_sumMods subject within s faithful).2
  | display v => exact (Session.finds_display v s faithful).2

theorem Allows.finds (subject : C.root.place = .subject) (single : ¬C.lists) {e : SessionM α}
    (h : C.Allows e) : ∃ a, Session.Finds C.root e a := by
  cases h with
  | tags family lists =>
    exact ⟨_, Session.finds_askTags subject family fun list => single (lists list)⟩
  | read within mem => exact Session.finds_read subject within mem
  | sum within => exact ⟨_, Session.finds_sumMods subject within⟩
  | display v => exact ⟨(), Session.finds_display v⟩

/-- An evaluation that does not ask about lists of tags has one answer in all faithful sessions. -/
theorem Admits.finds (subject : C.root.place = .subject) (single : ¬C.lists) (h : C.Admits e P) :
    ∃ answer, Session.Finds C.root e.run answer := by
  induction h with
  | @pure _ _ a _ => exact ⟨.ok a, .pure _⟩
  | @throw _ _ fault _ => exact ⟨.error fault, .pure _⟩
  | bind first _ ih next =>
    obtain ⟨answer, finds⟩ := ih
    rw [ExceptT.run_bind]
    cases answer with
    | ok a =>
      -- `a` is the answer in the session without a history, so it has the property.
      have found := (finds {} (Session.faithful_of_memos fun _ => rfl)).1
      have holds := first.answers {}
      rw [found] at holds
      obtain ⟨answer, rest⟩ := next a holds
      exact ⟨answer, finds.bind rest⟩
    | error fault => exact ⟨.error fault, finds.bind (.pure _)⟩
  | ask allowed _ =>
    obtain ⟨a, finds⟩ := allowed.finds subject single
    exact ⟨.ok a, finds.map _⟩

end Conduct

end LootFilter
