import LootFilter.Proofs.Session.Kept

/-!
# Asking again

What is kept with an item is never dropped or replaced. So an evaluation that is repeated, while
what was kept after it is still kept, comes to the same and keeps nothing more. That holds even for
questions about lists of tags, whose answers depend on what was asked before.
-/

namespace LootFilter

/-- Whether what is kept in a memo is kept in another one. -/
structure Memo.Below (memo memo' : Memo) : Prop where
  tags : ∀ key b, memo.tags.lookup key = some b → memo'.tags.lookup key = some b
  sums : ∀ p sum, memo.sums.sum? p = some sum → memo'.sums.sum? p = some sum
  price : ∀ x, memo.price = some x → memo'.price = some x

namespace Memo

variable {memo memo' other : Memo}

theorem Below.refl (memo : Memo) : memo.Below memo := ⟨fun _ _ => id, fun _ _ => id, fun _ => id⟩

theorem Below.trans (h : memo.Below other) (h' : other.Below memo') : memo.Below memo' where
  tags key b found := h'.tags key b (h.tags key b found)
  sums p sum found := h'.sums p sum (h.sums p sum found)
  price x found := h'.price x (h.price x found)

end Memo

namespace Session

variable {α β : Type} {root it : Item} {s s' other : Session} {memo : Memo}

/-- Whether what is kept with the family is kept in another session. -/
def Below (root : Item) (s s' : Session) : Prop :=
  ∀ it, root.Family it → (s.memo it).Below (s'.memo it)

def SameMemos (root : Item) (s s' : Session) : Prop :=
  ∀ it, root.Family it → s.memo it = s'.memo it

theorem Below.trans (h : s.Below root other) (h' : other.Below root s') : s.Below root s' :=
  fun it family => (h it family).trans (h' it family)

theorem SameMemos.below (h : s.SameMemos root s') : s.Below root s' := fun it family => by
  rw [h it family]
  exact .refl _

theorem SameMemos.symm (h : s.SameMemos root s') : s'.SameMemos root s :=
  fun it family => (h it family).symm

theorem SameMemos.trans (h : s.SameMemos root other) (h' : other.SameMemos root s') :
    s.SameMemos root s' := fun it family => (h it family).trans (h' it family)

theorem sameMemos_of_memos (h : s.memos = s'.memos) : s.SameMemos root s' := fun it _ => by
  rw [Session.memo, h, Session.memo]

/-- A computation that keeps what is kept. Once what it keeps is kept, it gives the same again and
keeps nothing more. -/
structure Replays (root : Item) (e : SessionM α) : Prop where
  grows : ∀ s : Session, s.Below root (e.run s).2
  again : ∀ s s' : Session, (e.run s).2.Below root s' →
    (e.run s').1 = (e.run s).1 ∧ (e.run s').2.SameMemos root s'

theorem Replays.bind {e : SessionM α} {f : α → SessionM β} (first : Replays root e)
    (next : ∀ s, Replays root (f (e.run s).1)) : Replays root (e >>= f) where
  grows s := (first.grows s).trans ((next s).grows _)
  again s s' kept := by
    obtain ⟨answer, same⟩ := first.again s s' (((next s).grows _).trans kept)
    obtain ⟨result, after⟩ := (next s).again _ (e.run s').2 (kept.trans same.symm.below)
    rw [← answer] at result after
    exact ⟨result.trans (by rw [answer]; rfl), after.trans same⟩

/-- Any number of repetitions gives the same answer. -/
theorem Replays.repeated {e : SessionM α} (h : Replays root e)
    (steady : s' = s ∨ s'.SameMemos root (e.run s).2) :
    (e.run s').1 = (e.run s).1 ∧ (e.run s').2.SameMemos root (e.run s).2 := by
  rcases steady with rfl | same
  · exact ⟨rfl, fun _ _ => rfl⟩
  · obtain ⟨answer, after⟩ := h.again s s' same.symm.below
    exact ⟨answer, after.trans same⟩

theorem replays_of_memos {e : SessionM α} (a : α) (answers : ∀ s, (e.run s).1 = a)
    (memos : ∀ s, (e.run s).2.memos = s.memos) : Replays root e where
  grows s := (sameMemos_of_memos (memos s)).symm.below
  again s s' _ := ⟨by rw [answers, answers], sameMemos_of_memos (memos s')⟩

theorem replays_pure (a : α) : Replays root (pure a) :=
  replays_of_memos a (fun _ => rfl) fun _ => rfl

theorem replays_note (request : Request) : Replays root (note request) :=
  replays_of_memos () (fun _ => rfl) fun _ => rfl

theorem Replays.map {e : SessionM α} (h : Replays root e) (f : α → β) : Replays root (f <$> e) := by
  rw [map_eq_pure_bind]
  exact h.bind fun s => replays_pure _

section family

variable (subject : root.place = .subject) (family : root.Family it)

include subject family

theorem below_setMemo (kept : (s.memo it).Below memo) : s.Below root (s.setMemo it memo) := by
  intro other family'
  by_cases same : other.place = it.place
  · obtain rfl := Item.Family.eq_of_place subject family' family same
    rwa [memo_setMemo]
  · rw [memo_setMemo_of_ne same]
    exact .refl _

theorem sameMemos_setMemo : (s.setMemo it (s.memo it)).SameMemos root s := by
  intro other family'
  by_cases same : other.place = it.place
  · obtain rfl := Item.Family.eq_of_place subject family' family same
    exact memo_setMemo
  · exact memo_setMemo_of_ne same

theorem replays_askTags (query : TagQuery) : Replays root (askTags it query) where
  grows s := by
    cases found : (s.memo it).tags.lookup query.key with
    | some b =>
      rw [TagQuery.askTags_hit found]
      exact fun _ _ => .refl _
    | none =>
      rw [TagQuery.askTags_miss found]
      -- Only a key without an answer is given one.
      refine below_setMemo subject family ⟨fun key b kept => ?_, fun _ _ => id, fun _ => id⟩
      rw [List.lookup_cons]
      split
      · rename_i same
        rw [beq_iff_eq.1 same, found] at kept
        cases kept
      · exact kept
  again s s' kept := by
    have answered : (((askTags it query).run s).2.memo it).tags.lookup query.key =
        some ((askTags it query).run s).1 := by
      cases found : (s.memo it).tags.lookup query.key with
      | some b => rw [TagQuery.askTags_hit found, found]
      | none => rw [TagQuery.askTags_miss found, memo_setMemo, List.lookup_cons_self]
    rw [TagQuery.askTags_hit ((kept it family).tags _ _ answered)]
    exact ⟨rfl, fun _ _ => rfl⟩

theorem replays_sumPartition (p : Partition) : Replays root (sumPartition it p) where
  grows s := by
    cases found : (s.memo it).sums.sum? p with
    | some sum =>
      rw [sumPartition_hit found]
      exact below_setMemo subject family (.refl _)
    | none =>
      rw [sumPartition_miss found]
      refine below_setMemo subject family ⟨fun _ _ => id, fun q sum kept => ?_, fun _ => id⟩
      have other : q ≠ p := by
        rintro rfl
        cases found.symm.trans kept
      simp only [PartitionSums.insert, if_neg other, kept]
  again s s' kept := by
    have answered : (((sumPartition it p).run s).2.memo it).sums.sum? p =
        some ((sumPartition it p).run s).1 := by
      cases found : (s.memo it).sums.sum? p with
      | some sum => rw [sumPartition_hit found, memo_setMemo, found]
      | none =>
        rw [sumPartition_miss found, memo_setMemo]
        exact if_pos rfl
    rw [sumPartition_hit ((kept it family).sums _ _ answered)]
    exact ⟨rfl, sameMemos_setMemo subject family⟩

theorem replays_estimateValue : Replays root (estimateValue it) where
  grows s := by
    cases found : (s.memo it).price with
    | some x =>
      rw [estimateValue_hit found]
      exact fun _ _ => .refl _
    | none =>
      rw [estimateValue_miss found]
      have priced : s.SameMemos root (s.priced it) := sameMemos_of_memos rfl
      refine priced.below.trans (below_setMemo subject family ⟨fun _ _ => id, fun _ _ => id, ?_⟩)
      intro x kept
      cases found.symm.trans kept
  again s s' kept := by
    have answered : (((estimateValue it).run s).2.memo it).price =
        some ((estimateValue it).run s).1 := by
      cases found : (s.memo it).price with
      | some x => rw [estimateValue_hit found, found]
      | none => rw [estimateValue_miss found, memo_setMemo]
    rw [estimateValue_hit ((kept it family).price _ answered)]
    exact ⟨rfl, fun _ _ => rfl⟩

end family

/-! ## Evaluations -/

section asking

variable (subject : root.place = .subject)

include subject

theorem replays_read {r : Record} {field : RecordField r.kind.Subject} (within : r.Within root)
    (mem : field ∈ r.kind.fields) : Replays root (r.read field) := by
  have stays := Record.fields_stay within field mem
  refine (replays_note _).bind fun _ => ?_
  obtain ⟨_, ty, reading⟩ := field
  cases reading with
  | allStats f => exact (replays_sumPartition subject stays .itemMods).map _
  | price f => exact (replays_estimateValue subject stays).map _
  | _ => exact replays_pure _

theorem replays_sumMods {mods : Mods} (within : mods.Within root) :
    Replays root (sumMods mods) := by
  refine (replays_note _).bind fun _ => ?_
  cases mods with
  | partition it p => exact replays_sumPartition subject within p
  | picked ms => exact replays_pure _

end asking

end Session

namespace Conduct

variable {C : Conduct} {α : Type} {P : α → Prop}

theorem Allows.replays (subject : C.root.place = .subject) {e : SessionM α} (h : C.Allows e) :
    Session.Replays C.root e := by
  cases h with
  | tags family _ => exact Session.replays_askTags subject family _
  | read within mem => exact Session.replays_read subject within mem
  | sum within => exact Session.replays_sumMods subject within
  | display v => exact Session.replays_of_memos () (fun _ => rfl) fun _ => rfl

theorem Admits.replays (subject : C.root.place = .subject) {e : EvalM α} (h : C.Admits e P) :
    Session.Replays C.root e.run := by
  induction h with
  | pure => exact Session.replays_pure _
  | throw => exact Session.replays_pure _
  | bind first _ ih next =>
    rename_i e f _
    rw [ExceptT.run_bind]
    refine ih.bind fun s => ?_
    -- What `f` is run on is an answer of `e`, so it has the property that `f` relies on.
    have answers := first.answers s
    cases answer : (e.run.run s).1 with
    | ok a =>
      rw [answer] at answers
      exact next a answers
    | error fault => exact Session.replays_pure _
  | ask allowed _ => exact (allowed.replays subject).map _

end Conduct

end LootFilter
