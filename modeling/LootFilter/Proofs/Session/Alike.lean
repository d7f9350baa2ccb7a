import LootFilter.Proofs.Session.Conduct
import LootFilter.Proofs.Session.Kept

/-!
# Sessions that differ in requests only

What rules asked of records is written down in a session, and read by nothing. So what an evaluation
comes to does not depend on it, and neither does anything else that it leaves.
-/

namespace LootFilter

/-- The sessions differ at most in what rules asked of records. -/
structure Session.Alike (s s' : Session) : Prop where
  memos : s.memos = s'.memos
  priceQueries : s.priceQueries = s'.priceQueries
  log : s.log = s'.log
  shown : s.shown = s'.shown

namespace Session

variable {s s' : Session} {α β : Type} {e : SessionM α}

theorem alike_requests (s : Session) (requests : List Request) :
    s.Alike { s with requests } := ⟨rfl, rfl, rfl, rfl⟩

theorem Alike.exists_requests (h : s.Alike s') : ∃ requests, s' = { s with requests } := by
  obtain ⟨memos, priceQueries, log, shown⟩ := h
  cases s
  cases s'
  cases memos
  cases priceQueries
  cases log
  cases shown
  exact ⟨_, rfl⟩

/-! ## Ways of asking -/

/-- Other requests before the computation change nothing but the requests after it. -/
def Blind (e : SessionM α) : Prop :=
  ∀ s requests, ∃ requests', e.run { s with requests } =
    ((e.run s).1, { (e.run s).2 with requests := requests' })

theorem Blind.map (h : Blind e) (f : α → β) : Blind (f <$> e) := by
  intro s requests
  obtain ⟨requests', same⟩ := h s requests
  refine ⟨requests', ?_⟩
  change (f (e.run _).1, (e.run _).2) = _
  rw [same]
  rfl

theorem Blind.noted (h : Blind e) (request : Request) : Blind (do note request; e) := by
  intro s requests
  obtain ⟨_, before⟩ := h s (request :: s.requests)
  obtain ⟨requests', after⟩ := h s (request :: requests)
  refine ⟨requests', ?_⟩
  change e.run { s with requests := request :: requests } =
    ((e.run { s with requests := request :: s.requests }).1,
      { (e.run { s with requests := request :: s.requests }).2 with requests := requests' })
  rw [before, after]

theorem blind_pure (a : α) : Blind (pure a) := fun _ requests => ⟨requests, rfl⟩

theorem blind_askTags (it : Item) (query : TagQuery) : Blind (askTags it query) := by
  intro s requests
  refine ⟨requests, ?_⟩
  cases kept : (s.memo it).tags.lookup query.key with
  | some b =>
    have kept' : (({ s with requests } : Session).memo it).tags.lookup query.key = some b := kept
    rw [TagQuery.askTags_hit kept, TagQuery.askTags_hit kept']
  | none =>
    have kept' : (({ s with requests } : Session).memo it).tags.lookup query.key = none := kept
    rw [TagQuery.askTags_miss kept, TagQuery.askTags_miss kept']
    rfl

theorem blind_sumPartition (it : Item) (p : Partition) : Blind (sumPartition it p) :=
  fun _ requests => ⟨requests, rfl⟩

theorem blind_estimateValue (it : Item) : Blind (estimateValue it) := by
  intro s requests
  refine ⟨requests, ?_⟩
  cases kept : (s.memo it).price with
  | some x =>
    have kept' : (({ s with requests } : Session).memo it).price = some x := kept
    rw [estimateValue_hit kept, estimateValue_hit kept']
  | none =>
    have kept' : (({ s with requests } : Session).memo it).price = none := kept
    rw [estimateValue_miss kept, estimateValue_miss kept']
    rfl

theorem blind_sumMods (mods : Mods) : Blind (sumMods mods) := by
  apply Blind.noted
  cases mods with
  | partition it p => exact blind_sumPartition it p
  | picked ms => exact blind_pure _

theorem blind_reading {ty : Ty} (reading : Reading α ty) (a : α) : Blind (reading.run a) := by
  cases reading with
  | allStats f => exact (blind_sumPartition (f a) .itemMods).map _
  | price f => exact (blind_estimateValue (f a)).map _
  | _ => exact blind_pure _

end Session

namespace Conduct

variable {C : Conduct} {α β : Type} {P : α → Prop}

theorem Allows.blind {e : SessionM α} (h : C.Allows e) : Session.Blind e := by
  cases h with
  | tags => exact Session.blind_askTags _ _
  | read => exact (Session.blind_reading _ _).noted _
  | sum => exact Session.blind_sumMods _
  | display v => exact fun _ requests => ⟨requests, rfl⟩

end Conduct

/-! ## Evaluations -/

/-- In sessions that are alike the evaluations come to the same, and leave such sessions. -/
def Eval.Alike {α : Type} (e e' : EvalM α) : Prop :=
  ∀ s s' : Session, s.Alike s' →
    (e.run.run s).1 = (e'.run.run s').1 ∧ (e.run.run s).2.Alike (e'.run.run s').2

namespace Eval

variable {C : Conduct} {α β : Type} {P : α → Prop} {e e' : EvalM α}

theorem Alike.bind {f g : α → EvalM β} (first : Alike e e') (answers : C.Admits e P)
    (next : ∀ a, P a → Alike (f a) (g a)) : Alike (e >>= f) (e' >>= g) := by
  intro s s' same
  have possible := answers.answers s
  obtain ⟨answer, after⟩ := first s s' same
  rw [Conduct.run_bind, Conduct.run_bind]
  generalize e.run.run s = run at possible answer after ⊢
  generalize e'.run.run s' = run' at answer after ⊢
  rcases run with ⟨answer, s⟩
  rcases run' with ⟨_, s'⟩
  obtain rfl := answer
  cases answer with
  | ok a => exact next a possible s s' after
  | error fault => exact ⟨rfl, after⟩

theorem alike_of_admits (h : C.Admits e P) : Alike e e := by
  induction h with
  | pure => exact fun _ _ same => ⟨rfl, same⟩
  | throw => exact fun _ _ same => ⟨rfl, same⟩
  | bind first _ ih next => exact ih.bind first next
  | ask allowed =>
    intro s s' same
    obtain ⟨requests, rfl⟩ := same.exists_requests
    obtain ⟨requests', run⟩ := allowed.blind s requests
    rename_i e _
    change Except.ok (e.run s).1 = .ok (e.run { s with requests }).1 ∧
      (e.run s).2.Alike (e.run { s with requests }).2
    rw [run]
    exact ⟨rfl, Session.alike_requests ..⟩

end Eval

end LootFilter
