import LootFilter.Language.Evaluation
import LootFilter.Proofs.Item.Family
import LootFilter.Proofs.Session.Tags

/-!
# What evaluations do to a session

An evaluation acts on a session only by asking about an item and its family. What it may ask, and
which faults it may end with, is its conduct. That an evaluation keeps to a conduct is derived from
its parts, and says what every run of it does.
-/

namespace LootFilter

/-- What an evaluation may do. -/
structure Conduct where
  root : Item
  lists : Prop
  faults : Fault → Prop

namespace Conduct

variable {C : Conduct} {α β : Type}

/-- The ways of asking. -/
inductive Allows (C : Conduct) : {α : Type} → SessionM α → Prop
  | tags {it : Item} {query : TagQuery} : C.root.Family it →
      (query.IsAboutList → C.lists) → Allows C (Session.askTags it query)
  | read {r : Record} {field : RecordField r.kind.Subject} : r.Within C.root →
      field ∈ r.kind.fields → Allows C (r.read field)
  | sum {mods : Mods} : mods.Within C.root → Allows C (Session.sumMods mods)
  | display (v : Value) : Allows C (Session.display v)

/-- The evaluation keeps to the conduct, and its result has the property `P`. -/
inductive Admits (C : Conduct) : {α : Type} → EvalM α → (α → Prop) → Prop
  | pure {α : Type} {P : α → Prop} {a : α} : P a → Admits C (pure a) P
  | throw {α : Type} {P : α → Prop} {fault : Fault} : C.faults fault →
      Admits C (throw fault : EvalM α) P
  | bind {α β : Type} {P : α → Prop} {Q : β → Prop} {e : EvalM α} {f : α → EvalM β} :
      Admits C e P → (∀ a, P a → Admits C (f a) Q) → Admits C (e >>= f) Q
  | ask {α : Type} {P : α → Prop} {e : SessionM α} : C.Allows e → (∀ s, P (e.run s).1) →
      Admits C (liftM e) P

variable {P : α → Prop} {Q : β → Prop} {e : EvalM α}

theorem Admits.weaken (h : C.Admits e P) {P' : α → Prop} (weaker : ∀ a, P a → P' a) :
    C.Admits e P' := by
  induction h with
  | pure holds => exact .pure (weaker _ holds)
  | throw allowed => exact .throw allowed
  | bind first _ _ next => exact .bind first fun a holds => next a holds weaker
  | ask allowed holds => exact .ask allowed fun s => weaker _ (holds s)

theorem Admits.map (h : C.Admits e P) {f : α → β} (holds : ∀ a, P a → Q (f a)) :
    C.Admits (f <$> e) Q := by
  rw [map_eq_pure_bind]
  exact h.bind fun a result => .pure (holds a result)

def Answers (C : Conduct) (answer : Except Fault α) (P : α → Prop) : Prop :=
  match answer with
  | .ok a => P a
  | .error fault => C.faults fault

theorem Answers.bind {answer : Except Fault α} {f : α → Except Fault β} (h : C.Answers answer P)
    (next : ∀ a, P a → C.Answers (f a) Q) : C.Answers (answer >>= f) Q := by
  cases answer with
  | ok a => exact next a h
  | error fault => exact h

theorem Answers.weaken {answer : Except Fault α} (h : C.Answers answer P) {P' : α → Prop}
    (weaker : ∀ a, P a → P' a) : C.Answers answer P' := by
  cases answer with
  | ok a => exact weaker a h
  | error fault => exact h

theorem Answers.admits {answer : Except Fault α} (h : C.Answers answer P) :
    C.Admits (Eval.pureOf answer) P := by
  cases answer with
  | ok a => exact .pure h
  | error fault => exact .throw h

/-! ## Sequences -/

variable {f : α → EvalM β} {as : List α}

theorem admits_mapM (h : ∀ a ∈ as, C.Admits (f a) Q) :
    C.Admits (as.mapM f) fun bs => ∀ b ∈ bs, Q b := by
  induction as with
  | nil => exact .pure fun _ mem => nomatch mem
  | cons a as ih =>
    rw [List.mapM_cons]
    apply (h a (.head as)).bind
    intro b first
    refine (ih fun a mem => h a (.tail _ mem)).bind fun bs rest => ?_
    exact .pure (List.forall_mem_cons.2 ⟨first, rest⟩)

theorem admits_foldlM {f : β → α → EvalM β} (h : ∀ a ∈ as, ∀ b, C.Admits (f b a) fun _ => True)
    (b : β) : C.Admits (as.foldlM f b) fun _ => True := by
  induction as generalizing b with
  | nil => exact .pure trivial
  | cons a as ih =>
    rw [List.foldlM_cons]
    exact (h a (.head as) b).bind fun b _ => ih (fun a mem => h a (.tail _ mem)) b

variable {test : α → EvalM Bool}

theorem admits_anyM (h : ∀ a ∈ as, C.Admits (test a) fun _ => True) :
    C.Admits (as.anyM test) fun _ => True := by
  induction as with
  | nil => exact .pure trivial
  | cons a as ih =>
    apply (h a (.head as)).bind
    intro b _
    cases b with
    | true => exact .pure trivial
    | false => exact ih fun a mem => h a (.tail _ mem)

theorem admits_allM (h : ∀ a ∈ as, C.Admits (test a) fun _ => True) :
    C.Admits (as.allM test) fun _ => True := by
  induction as with
  | nil => exact .pure trivial
  | cons a as ih =>
    apply (h a (.head as)).bind
    intro b _
    cases b with
    | true => exact ih fun a mem => h a (.tail _ mem)
    | false => exact .pure trivial

theorem admits_keep (h : ∀ a ∈ as, C.Admits (test a) fun _ => True) :
    C.Admits (Eval.keep test as) fun kept => ∀ a ∈ kept, a ∈ as := by
  induction as with
  | nil => exact .pure fun _ mem => mem
  | cons a as ih =>
    have rest := ih fun a mem => h a (.tail _ mem)
    apply (h a (.head as)).bind
    intro b _
    cases b with
    | true => exact rest.bind fun kept sub => .pure (List.cons_subset_cons a sub)
    | false => exact rest.weaken fun kept sub a mem => .tail _ (sub a mem)

theorem admits_firstThat (h : ∀ a ∈ as, C.Admits (test a) fun _ => True)
    (allowed : C.faults .emptySequence) :
    C.Admits (Eval.firstThat test as) fun a => a ∈ as := by
  induction as with
  | nil => exact .throw allowed
  | cons a as ih =>
    apply (h a (.head as)).bind
    intro b _
    cases b with
    | true => exact .pure (.head as)
    | false => exact (ih fun a mem => h a (.tail _ mem)).weaken fun _ => .tail _

/-! ## Runs -/

theorem run_bind (e : EvalM α) (f : α → EvalM β) (s : Session) :
    (e >>= f).run.run s = match e.run.run s with
      | (.ok a, s) => (f a).run.run s
      | (.error fault, s) => (.error fault, s) := by
  change ExceptT.bindCont f (e.run.run s).1 (e.run.run s).2 = _
  rcases e.run.run s with ⟨answer, s⟩
  cases answer <;> rfl

theorem Admits.answers (h : C.Admits e P) (s : Session) : C.Answers (e.run.run s).1 P := by
  induction h generalizing s with
  | pure holds => exact holds
  | throw allowed => exact allowed
  | bind _ _ first next =>
    rename_i e f _ _
    -- Only an answer that is no fault is handed on, and it has the property that `f` relies on.
    have answers := first s
    rw [run_bind]
    generalize e.run.run s = run at answers ⊢
    rcases run with ⟨answer, s⟩
    cases answer with
    | ok a => exact next a answers s
    | error fault => exact answers
  | ask _ holds => exact holds s

theorem Admits.preserves {I : Session → Prop} (h : C.Admits e P)
    (ask : ∀ {γ : Type} {e : SessionM γ}, C.Allows e → ∀ s, I s → I (e.run s).2) {s : Session}
    (holds : I s) : I (e.run.run s).2 := by
  induction h generalizing s with
  | pure => exact holds
  | throw => exact holds
  | bind first _ ih next =>
    rename_i e f _
    have answers := first.answers s
    have after := ih holds
    rw [run_bind]
    generalize e.run.run s = run at answers after ⊢
    rcases run with ⟨answer, s⟩
    cases answer with
    | ok a => exact next a answers after
    | error fault => exact after
  | ask allowed _ => exact ask allowed s holds

/-- Two continuations can be told apart only by a result that the evaluation can have. -/
theorem Admits.bind_congr (h : C.Admits e P) {f g : α → EvalM β} (same : ∀ a, P a → f a = g a) :
    e >>= f = e >>= g := by
  funext s
  change (e >>= f).run.run s = (e >>= g).run.run s
  have answers := h.answers s
  rw [run_bind, run_bind]
  generalize e.run.run s = run at answers ⊢
  rcases run with ⟨answer, s⟩
  cases answer with
  | ok a => exact congrArg (fun e : EvalM β => e.run.run s) (same a answers)
  | error fault => rfl

end Conduct

end LootFilter
