import LootFilter.Proofs.Language.Rules
import LootFilter.Proofs.Value.Typed

/-!
# Operations on values of fitting types

An operation on values of the types that it is compiled for gives a value of the type that it is
compiled to, and can only fault in its own way.
-/

namespace LootFilter

theorem Ty.toTy_of_toElem? {ty : Ty} {e : ElemTy} (h : ty.toElem? = some e) : e.toTy = ty := by
  unfold toElem? at h
  split at h <;> cases h <;> rfl

namespace Conduct

open Value (HasTy)

variable {C : Conduct} {v w : Value}

theorem answers_wholeArithmetic (a : Arithmetic) (x y : Int64)
    (allowed : a = .div ∨ a = .rem → C.faults .divideByZero) :
    C.Answers (Eval.wholeArithmetic a x y) fun _ => True := by
  unfold Eval.wholeArithmetic
  split
  · trivial
  · trivial
  · trivial
  · split
    · exact allowed (.inl rfl)
    · trivial
  · split
    · exact allowed (.inr rfl)
    · trivial

theorem answers_compute_int (a : Arithmetic) (h : v.HasTy C.root .int) (h' : w.HasTy C.root .int)
    (allowed : a = .div ∨ a = .rem → C.faults .divideByZero) :
    C.Answers (Eval.compute a false v w) fun v => v.HasTy C.root .int := by
  refine (answers_asInt h).bind fun x _ => (answers_asInt h').bind fun y _ => ?_
  have result := answers_wholeArithmetic a x y allowed
  exact result.bind fun z _ => .int z

theorem answers_compute_real {ty ty' : Ty} (a : Arithmetic) (numeric : ty.isNumeric)
    (numeric' : ty'.isNumeric) (h : v.HasTy C.root ty) (h' : w.HasTy C.root ty') :
    C.Answers (Eval.compute a true v w) fun v => v.HasTy C.root .real := by
  refine (answers_asReal numeric h).bind fun x _ => (answers_asReal numeric' h').bind fun y _ => ?_
  exact .real (Eval.realArithmetic a x y)

theorem answers_negate {ty : Ty} (numeric : ty.isNumeric) (h : v.HasTy C.root ty) :
    C.Answers (Eval.negate (ty = .real) v) fun v => v.HasTy C.root ty := by
  unfold Ty.isNumeric at numeric
  split at numeric
  · exact (answers_asInt h).bind fun x _ => .int (-x)
  · exact (answers_asReal rfl h).bind fun x _ => .real (-x)
  · cases numeric

theorem answers_compare {c : Comparison} {kind : Scalar} {ty ty' : Ty}
    (comparable : Typing.comparable? c ty ty' = some kind) (h : v.HasTy C.root ty)
    (h' : w.HasTy C.root ty') :
    C.Answers (Eval.compare c kind v w) fun v => v.HasTy C.root .bool := by
  unfold Typing.comparable? at comparable
  split at comparable
  · cases comparable
    exact (answers_asInt h).bind fun x _ => (answers_asInt h').bind fun y _ => .bool _
  · cases comparable
    exact (answers_asReal rfl h).bind fun x _ => (answers_asReal rfl h').bind fun y _ => .bool _
  · cases comparable
    exact (answers_asReal rfl h).bind fun x _ => (answers_asReal rfl h').bind fun y _ => .bool _
  · cases comparable
    exact (answers_asReal rfl h).bind fun x _ => (answers_asReal rfl h').bind fun y _ => .bool _
  · cases comparable
    exact (answers_asText h).bind fun x _ => (answers_asText h').bind fun y _ => .bool _
  · split at comparable
    · cases comparable
    · cases comparable
      exact (answers_asBool h).bind fun x _ => (answers_asBool h').bind fun y _ => .bool _
  · cases comparable

/-! ## Stat tables -/

section tables

theorem answers_stat_int (h : v.HasTy C.root .intStats) (key : String) :
    C.Answers (Eval.stat v key) fun v => v.HasTy C.root .int := by
  cases h
  exact .int _

theorem answers_stat_real (h : v.HasTy C.root .realStats) (key : String) :
    C.Answers (Eval.stat v key) fun v => v.HasTy C.root .real := by
  cases h
  exact .real _

variable {table : Ty} (stats : table = .intStats ∨ table = .realStats)

include stats

theorem answers_statCount (h : v.HasTy C.root table) :
    C.Answers (Eval.statCount v) fun v => v.HasTy C.root .int := by
  rcases stats with rfl | rfl <;> cases h <;> exact .int _

theorem answers_hasStat (h : v.HasTy C.root table) (key : String) :
    C.Answers (Eval.hasStat v key) fun v => v.HasTy C.root .bool := by
  rcases stats with rfl | rfl <;> cases h <;> exact .bool _

end tables

/-! ## Sequences -/

variable {vs : List Value} {elem mapped : Ty}

theorem answers_nth (h : ∀ v ∈ vs, v.HasTy C.root elem) (n : Int64)
    (allowed : ∀ length, C.faults (.indexOutOfRange n length)) :
    C.Answers (Eval.nth vs n) fun v => v.HasTy C.root elem := by
  unfold Eval.nth
  split
  · exact allowed _
  · split
    · rename_i found
      exact h _ (List.mem_of_getElem? found)
    · exact allowed _

theorem answers_head (h : ∀ v ∈ vs, v.HasTy C.root elem) (allowed : C.faults .emptySequence) :
    C.Answers (Eval.head vs) fun v => v.HasTy C.root elem := by
  cases vs with
  | nil => exact allowed
  | cons v vs => exact h v (.head vs)

variable {f : Value → EvalM Value}

theorem admits_test (h : C.Admits (f v) fun v => v.HasTy C.root .bool) :
    C.Admits (Eval.test f v) fun _ => True :=
  h.bind fun _ typed => (answers_asBool typed).admits

theorem admits_sumOf_int (h : ∀ v ∈ vs, C.Admits (f v) fun v => v.HasTy C.root .int) :
    C.Admits (Eval.sumOf false f vs) fun v => v.HasTy C.root .int := by
  refine (admits_foldlM (fun v mem sum => ?_) (0 : Int64)).map fun sum _ => .int sum
  apply (h v mem).bind
  intro w typed
  exact (answers_asInt typed).admits.bind fun _ _ => .pure trivial

theorem admits_sumOf_real (h : ∀ v ∈ vs, C.Admits (f v) fun v => v.HasTy C.root .real) :
    C.Admits (Eval.sumOf true f vs) fun v => v.HasTy C.root .real := by
  refine (admits_foldlM (fun v mem sum => ?_) (0.0 : Float)).map fun sum _ => .real sum
  apply (h v mem).bind
  intro w typed
  exact (answers_asReal rfl typed).admits.bind fun _ _ => .pure trivial

theorem admits_sumOf (numeric : elem.isNumeric)
    (h : ∀ v ∈ vs, C.Admits (f v) fun v => v.HasTy C.root elem) :
    C.Admits (Eval.sumOf (elem = .real) f vs) fun v => v.HasTy C.root elem := by
  unfold Ty.isNumeric at numeric
  split at numeric
  · exact admits_sumOf_int h
  · exact admits_sumOf_real h
  · cases numeric

end Conduct

namespace Conduct

open Value (HasTy)

variable {C : Conduct} {f : Value → EvalM Value} {q : Query} {ty elem mapped result : Ty}

theorem admits_queryElements {vs : List Value} (gives : q.Gives ty elem mapped result)
    (list : q = .filter → ∃ e : ElemTy, ty = .list e ∧ e.toTy = elem)
    (first : q = .first → C.faults .emptySequence) (h : ∀ v ∈ vs, v.HasTy C.root elem)
    (lambda : ∀ v, v.HasTy C.root elem → C.Admits (f v) fun v => v.HasTy C.root mapped) :
    C.Admits (Eval.queryElements q f vs) fun v => v.HasTy C.root result := by
  have lambdas (v : Value) (mem : v ∈ vs) := lambda v (h v mem)
  cases gives with
  | count =>
    have kept := admits_keep fun v mem => admits_test (lambdas v mem)
    exact kept.bind fun vs _ => .pure (.int _)
  | any =>
    have found := admits_anyM fun v mem => admits_test (lambdas v mem)
    exact found.bind fun b _ => .pure (.bool b)
  | all =>
    have passed := admits_allM fun v mem => admits_test (lambdas v mem)
    exact passed.bind fun b _ => .pure (.bool b)
  | filter =>
    obtain ⟨e, rfl, rfl⟩ := list rfl
    have kept := admits_keep fun v mem => admits_test (lambdas v mem)
    exact kept.bind fun vs sub => .pure (.list fun v mem => h v (sub v mem))
  | first =>
    have found := admits_firstThat (fun v mem => admits_test (lambdas v mem)) (first rfl)
    exact found.weaken h
  | map elem =>
    refine (admits_mapM lambdas).bind fun vs typed => .pure (.list ?_)
    rwa [Ty.toTy_of_toElem? elem]
  | sum numeric => exact admits_sumOf numeric lambdas

/-- A query gives a value of its type for every sequence of the type that it is asked of. -/
theorem admits_query {v : Value} (sequence : ty.element? = some elem)
    (gives : q.Gives ty elem mapped result) (first : q = .first → C.faults .emptySequence)
    (h : v.HasTy C.root ty)
    (lambda : ∀ v, v.HasTy C.root elem → C.Admits (f v) fun v => v.HasTy C.root mapped) :
    C.Admits (Eval.query q f v) fun v => v.HasTy C.root result := by
  unfold Eval.query
  split
  · rename_i mods
    -- Modifiers that are picked out make up a collection again, which no item of a family owns.
    cases h
    obtain rfl := Option.some.inj sequence
    cases gives
    refine (admits_keep fun placed _ => ?_).bind fun kept _ => .pure (.mods trivial)
    exact admits_test (lambda _ (.record (r := .modifier placed) trivial))
  · rename_i other
    apply (answers_elements sequence h).admits.bind
    intro vs typed
    refine admits_queryElements gives (fun filters => ?_) first typed lambda
    cases h with
    | list => exact ⟨_, rfl, Option.some.inj sequence⟩
    | mods => exact (other _ filters rfl).elim
    | _ => cases sequence

end Conduct

end LootFilter
