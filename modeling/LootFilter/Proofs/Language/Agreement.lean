import LootFilter.Proofs.Language.Helper
import LootFilter.Proofs.Language.Stack

/-!
# Lambdas that agree

Queries and helpers apply a lambda to values of one type only. So two lambdas that agree on the
values of that type can stand for each other.
-/

namespace LootFilter

open Value (HasTy)

/-! ## Sequences -/

namespace Eval

section lists

variable {α β : Type} {as : List α} {test test' : α → EvalM Bool}

theorem mapM_congr {m : Type → Type} [Monad m] [LawfulMonad m] {f g : α → m β}
    (same : ∀ a ∈ as, f a = g a) : as.mapM f = as.mapM g := by
  induction as with
  | nil => rfl
  | cons a as ih =>
    obtain ⟨first, others⟩ := List.forall_mem_cons.1 same
    rw [List.mapM_cons, List.mapM_cons, first, ih others]

theorem foldlM_congr {f g : β → α → EvalM β} (same : ∀ a ∈ as, ∀ b, f b a = g b a) (b : β) :
    as.foldlM f b = as.foldlM g b := by
  induction as generalizing b with
  | nil => rfl
  | cons a as ih =>
    obtain ⟨first, others⟩ := List.forall_mem_cons.1 same
    rw [List.foldlM_cons, List.foldlM_cons, first]
    exact congrArg _ (funext fun b => ih others b)

theorem anyM_congr (same : ∀ a ∈ as, test a = test' a) : as.anyM test = as.anyM test' := by
  induction as with
  | nil => rfl
  | cons a as ih =>
    obtain ⟨first, others⟩ := List.forall_mem_cons.1 same
    rw [List.anyM, List.anyM, first, ih others]

theorem allM_congr (same : ∀ a ∈ as, test a = test' a) : as.allM test = as.allM test' := by
  induction as with
  | nil => rfl
  | cons a as ih =>
    obtain ⟨first, others⟩ := List.forall_mem_cons.1 same
    rw [List.allM, List.allM, first, ih others]

theorem keep_congr (same : ∀ a ∈ as, test a = test' a) : keep test as = keep test' as := by
  induction as with
  | nil => rfl
  | cons a as ih =>
    obtain ⟨first, others⟩ := List.forall_mem_cons.1 same
    rw [keep, keep, first, ih others]

theorem firstThat_congr (same : ∀ a ∈ as, test a = test' a) :
    firstThat test as = firstThat test' as := by
  induction as with
  | nil => rfl
  | cons a as ih =>
    obtain ⟨first, others⟩ := List.forall_mem_cons.1 same
    rw [firstThat, firstThat, first, ih others]

end lists

section lambdas

variable {f g : Value → EvalM Value} {vs : List Value}

theorem test_congr {v : Value} (same : f v = g v) : test f v = test g v := by rw [test, test, same]

theorem sumOf_congr (isReal : Bool) (same : ∀ v ∈ vs, f v = g v) :
    sumOf isReal f vs = sumOf isReal g vs := by
  unfold sumOf
  split
  · rw [foldlM_congr fun v mem sum => by rw [same v mem]]
  · rw [foldlM_congr fun v mem sum => by rw [same v mem]]

theorem queryElements_congr (q : Query) (same : ∀ v ∈ vs, f v = g v) :
    queryElements q f vs = queryElements q g vs := by
  have tests : ∀ v ∈ vs, test f v = test g v := fun v mem => test_congr (same v mem)
  cases q with
  | count => rw [queryElements, queryElements, keep_congr tests]
  | any => rw [queryElements, queryElements, anyM_congr tests]
  | all => rw [queryElements, queryElements, allM_congr tests]
  | filter => rw [queryElements, queryElements, keep_congr tests]
  | first => exact firstThat_congr tests
  | map => rw [queryElements, queryElements, mapM_congr same]
  | sum isReal => exact sumOf_congr isReal same

/-- A query applies its lambda to elements only. -/
theorem query_congr {root : Item} {v : Value} {ty elem : Ty} (q : Query)
    (sequence : ty.element? = some elem) (h : v.HasTy root ty)
    (same : ∀ v, v.HasTy root elem → f v = g v) : query q f v = query q g v := by
  unfold query
  split
  · rename_i mods
    cases h
    obtain rfl := Option.some.inj sequence
    rw [keep_congr fun placed _ => test_congr (same _ (.record (r := .modifier placed) trivial))]
  · have elements := Conduct.answers_elements (C := ⟨root, True, fun _ => True⟩) sequence h
    cases found : v.elements with
    | error fault => rfl
    | ok vs =>
      rw [found] at elements
      exact queryElements_congr _ fun v mem => same v (elements v mem)

end lambdas

end Eval

/-! ## Helpers -/

/-- Two arguments for a parameter that are the same to a helper. -/
inductive Argument.Agrees (root : Item) : Ty → Argument → Argument → Prop
  | value {ty : Ty} {v : Value} : Agrees root ty (.value v) (.value v)
  | lambda {elem : ElemTy} {test test' : Value → EvalM Bool} :
      (∀ v, v.HasTy root elem.toTy → test v = test' v) →
      Agrees root (.criterion elem) (.lambda test) (.lambda test')

inductive Argument.AgreeAll (root : Item) : List Ty → List Argument → List Argument → Prop
  | nil : AgreeAll root [] [] []
  | cons {ty : Ty} {tys : List Ty} {arg arg' : Argument} {args args' : List Argument} :
      Agrees root ty arg arg' → AgreeAll root tys args args' →
      AgreeAll root (ty :: tys) (arg :: args) (arg' :: args')

namespace Helper

open Argument (AgreeAll)

variable {root : Item} {tys : List Ty} {args args' : List Argument}

/-- The helper applies lambdas only to values of the types in its table. -/
def Respects (helper : Helper) : Prop :=
  ∀ root args args', AgreeAll root helper.passed args args' →
    helper.call root args = helper.call root args'

theorem eq_of_agreeAll (values : ∀ ty ∈ tys, ∀ elem, ty ≠ .criterion elem)
    (h : AgreeAll root tys args args') : args = args' := by
  induction h with
  | nil => rfl
  | cons agrees _ ih =>
    obtain ⟨first, others⟩ := List.forall_mem_cons.1 values
    rw [ih others]
    cases agrees with
    | value => rfl
    | lambda => exact (first _ rfl).elim

theorem respects_of_values {helper : Helper}
    (values : ∀ ty ∈ helper.passed, ∀ elem, ty ≠ .criterion elem) : helper.Respects :=
  fun root _ _ agree => congrArg (helper.call root) (eq_of_agreeAll values agree)

theorem respects_of_criterion {name : String} {returns : Ty}
    {act : Item → (Item → EvalM Bool) → EvalM Value}
    (same : ∀ root test test', (∀ it, root.Family it → test it = test' it) →
      act root test = act root test') :
    Respects ⟨name, [.criterion (.record .item)], none, returns,
      reading ReadArgs.criterion act⟩ := by
  intro root args args' agree
  obtain _ | ⟨agrees, ⟨⟩⟩ := agree
  cases agrees with
  | value => rfl
  | lambda agree => exact same root _ _ fun it family => agree _ (.record (r := .item it) family)

theorem isUnowned_congr {owned : List Item} {test test' : Item → EvalM Bool}
    (others : ∀ other ∈ owned, root.Family other)
    (same : ∀ it, root.Family it → test it = test' it) :
    root.isUnowned owned test = root.isUnowned owned test' := by
  rw [Item.isUnowned, Item.isUnowned, same root .self,
    Eval.anyM_congr fun other mem => same other (others other mem)]

theorem standard_respects : ∀ helper ∈ standard, helper.Respects := by
  simp only [standard, List.forall_mem_cons]
  and_intros
  -- All helpers but two are passed values only.
  all_goals try
    apply respects_of_values
    simp [passed]
    done
  · refine respects_of_criterion fun root test test' same => ?_
    rw [Item.isUnownedItem, Item.isUnownedItem, isUnowned_congr (fun _ => .viewed) same]
  · refine respects_of_criterion fun root test test' same => ?_
    rw [Item.isUnownedGem, Item.isUnownedGem, isUnowned_congr (fun _ => .viewedGem) same]
  · exact List.forall_mem_nil _

end Helper

end LootFilter
