import LootFilter.Proofs.Language.Split
import LootFilter.Proofs.Language.Unmentioned

/-!
# Searching a sequence

Whether a sequence contains a value is told by how values are, in general, equal. An operator
compares two operands as scalars of a kind that their types choose. Both agree, so a sequence of
scalars can as well be searched with a lambda that compares each element with the wanted expression,
which is then evaluated anew for each of them.
-/

namespace LootFilter

open Conduct (run_bind)
open Eval (pureOf)
open Typing (comparable?)
open Value (HasTy)

/-! ## Equality -/

namespace Eval

variable {root : Item} {v w : Value}

theorem holds_eq_compareOfLessAndEq {α : Type} [LT α] [DecidableLT α] [DecidableEq α]
    (irrefl : ∀ x : α, ¬x < x) (x y : α) :
    holds .eq (compareOfLessAndEq x y) = decide (x = y) := by
  unfold compareOfLessAndEq
  by_cases less : x < y
  · have differ : x ≠ y := fun same => irrefl y (same ▸ less)
    rw [if_pos less, decide_eq_false differ]
    rfl
  · rw [if_neg less]
    by_cases same : x = y
    · rw [if_pos same, decide_eq_true same]
      rfl
    · rw [if_neg same, decide_eq_false same]
      rfl

theorem compare_eq {ty ty' : Ty} {kind : Scalar} (comparable : comparable? .eq ty ty' = some kind)
    (h : v.HasTy root ty) (h' : w.HasTy root ty') :
    Eval.compare .eq kind v w = .ok (.bool (v.equals w)) := by
  unfold comparable? at comparable
  split at comparable
  case h_6 =>
    cases comparable
    cases h with | bool a =>
    cases h' with | bool b =>
    cases a <;> cases b <;> rfl
  case h_7 => cases comparable
  all_goals
    cases comparable
    cases h
    cases h'
    rw [Value.equals]
  case h_1.refl.int.int x y =>
    have irrefl (n : Int64) : ¬n < n := Int64.lt_irrefl
    exact congrArg (Except.ok ∘ Value.bool) (holds_eq_compareOfLessAndEq irrefl x y)
  case h_5.refl.text.text x y =>
    exact congrArg (Except.ok ∘ Value.bool) (holds_eq_compareOfLessAndEq String.lt_irrefl x y)
  all_goals rfl

theorem comparable?_of_join? {elem : Scalar} {ty wide : Ty}
    (joined : (Ty.scalar elem).join? ty = some wide) :
    ∃ kind, comparable? .eq (.scalar elem) ty = some kind := by
  cases ty with
  | scalar k => cases elem <;> cases k <;> first | exact ⟨_, rfl⟩ | cases joined
  | _ => cases elem <;> cases joined

/-- A test that answers as `p` does, in all sessions that it is run in, finds what `p` finds. -/
theorem anyM_of_steady {α : Type} {Steady : Session → Prop} {test : α → EvalM Bool} {p : α → Bool}
    {as : List α} (each : ∀ a ∈ as, ∀ s, Steady s →
      ∃ after, (test a).run.run s = (.ok (p a), after) ∧ Steady after)
    {s : Session} (steady : Steady s) :
    ∃ after, (as.anyM test).run.run s = (.ok (as.any p), after) := by
  induction as generalizing s with
  | nil => exact ⟨s, rfl⟩
  | cons a as ih =>
    obtain ⟨first, others⟩ := List.forall_mem_cons.1 each
    obtain ⟨after, answer, steady⟩ := first s steady
    rw [List.anyM_cons, run_bind, answer, List.any_cons]
    cases p a with
    | true => exact ⟨after, rfl⟩
    | false => exact ih others steady

end Eval

/-! ## Terms -/

namespace Term

variable {it : Item} {locals : Locals} {s mid after : Session} {t w : Term} {v wanted : Value}
  {vs : List Value} {fault : Fault}

theorem comesTo_contains (source : t.ComesTo it locals s (.ok v, mid))
    (sequence : v.elements = .ok vs) (found : w.ComesTo it locals mid (.ok wanted, after)) :
    (contains t w).ComesTo it locals s (.ok (.bool (vs.any (·.equals wanted))), after) := by
  rw [comesTo_iff] at source found ⊢
  rw [eval, run_bind, source]
  simp only [sequence, pureOf, pure_bind]
  rw [run_bind, found]
  rfl

theorem contains_fault (source : t.ComesTo it locals s (.error fault, mid)) :
    (contains t w).ComesTo it locals s (.error fault, mid) := by
  rw [comesTo_iff] at source ⊢
  rw [eval, run_bind, source]

theorem query_fault {q : Query} {body : Term} (source : t.ComesTo it locals s (.error fault, mid)) :
    (query q t body).ComesTo it locals s (.error fault, mid) := by
  rw [comesTo_iff] at source ⊢
  rw [eval, run_bind, source]

theorem comesTo_any (Steady : Session → Prop) {p : Value → Bool} {body : Term}
    (source : t.ComesTo it locals s (.ok v, mid)) (sequence : v.elements = .ok vs)
    (each : ∀ u ∈ vs, ∀ s, Steady s → ∃ after,
      (body.eval Helper.standard it (locals.push u)).run.run s = (.ok (.bool (p u)), after) ∧
        Steady after)
    (steady : Steady mid) :
    ∃ after, (query .any t body).ComesTo it locals s (.ok (.bool (vs.any p)), after) := by
  generalize run : (fun v => body.eval Helper.standard it (locals.push v)) = f
  have tests : ∀ u ∈ vs, ∀ s, Steady s →
      ∃ after, (Eval.test f u).run.run s = (.ok (p u), after) ∧ Steady after := by
    intro u mem s steady
    obtain ⟨after, answer, steady⟩ := each u mem s steady
    refine ⟨after, ?_, steady⟩
    rw [Eval.test, ← run, run_bind, answer]
    rfl
  obtain ⟨after, found⟩ := Eval.anyM_of_steady tests steady
  have queried : (query .any t body).ComesTo it locals s _ := comesTo_query source
  rw [run, Eval.query_of_elements (by decide) sequence] at queried
  change ComesTo it locals s _ ((Value.bool <$> vs.anyM (Eval.test f)).run.run mid) at queried
  rw [Trial.run_map, found] at queried
  exact ⟨after, queried⟩

end Term

/-! ## Expressions -/

namespace Expr

variable {it : Item} {bindings : Bindings} {source wanted : Expr} {t : Term} {elem : Scalar}
  {param : String}

/-- Whether a sequence contains a value. -/
def contains (source wanted : Expr) : Expr := .method source "Contains" [.plain wanted]

/-- The lambda that compares its element with a value. -/
def equalTo (pos pos' : Nat) (param : String) (wanted : Expr) : Arg Expr :=
  .lambda pos param (.binary (.compare .eq) (.name pos' param) wanted)

theorem contains_rule {typed : Typed} {scopes : Scopes}
    (sequence : source.compile .standard scopes = .ok (t, .list (.scalar elem)))
    (accepted : (source.contains wanted).compile .standard scopes = .ok typed) :
    ∃ w ty kind, wanted.compile .standard scopes = .ok (w, ty) ∧
      comparable? .eq (.scalar elem) ty = some kind ∧ typed = (.contains t w, .bool) := by
  rw [contains, compile, sequence] at accepted
  have found := Typing.found_ok (accepted : Typing.method (t, .list (.scalar elem)) "Contains"
    (pendingArgs .standard [.plain wanted]) scopes source.pos = .ok typed)
  obtain ⟨⟨w, ty⟩, compiled, found⟩ := Typing.bind_eq_ok.1 found
  dsimp only at found
  split at found
  · cases found
  · cases found
  · rename_i joined _
    obtain ⟨kind, comparable⟩ := Eval.comparable?_of_join? joined
    cases found
    exact ⟨w, ty, kind, compiled, comparable, rfl⟩

theorem compile_equalTo {scopes : Scopes} {w : Term} {ty : Ty} {kind : Scalar} (pos pos' : Nat)
    (compiled : wanted.compile .standard scopes = .ok (w, ty))
    (comparable : comparable? .eq (.scalar elem) ty = some kind) (fresh : ¬wanted.Mentions param) :
    let inner : Scopes := ⟨param, .scalar elem, false⟩ :: scopes
    ∃ u, wanted.compile .standard inner = .ok (u, ty) ∧
      (equalTo pos pos' param wanted).body.compile .standard inner =
        .ok (.compare .eq kind (.slot scopes.length) u, .bool) := by
  intro inner
  obtain ⟨u, deeper⟩ := compile_within (s := ⟨param, .scalar elem, false⟩) rfl fresh compiled
  refine ⟨u, deeper, ?_⟩
  have self : (Expr.name pos' param).compile .standard inner = _ :=
    Arg.compile_self .standard scopes (.scalar elem) pos pos' param
  rw [equalTo, Arg.body, compile, self, deeper]
  simp only [Typing.ok_bind, Typing.binary, comparable]

section steady

variable {w u : Term} {ty : Ty} {kind : Scalar} {s mid after : Session} {v value : Value}
  (subject : it.place = .subject) (values : bindings.Typed it)
  (compiled : wanted.compile .standard bindings.scopes = .ok (w, ty))
  (once : w.ComesTo it bindings.locals mid (.ok value, after))
  (steady : s = mid ∨ s.SameMemos it after)

include subject values compiled once steady

/-- While no more is kept than after the first evaluation, the expression comes to the same. -/
theorem comesTo_again : value.HasTy it ty ∧ ∃ after', after'.SameMemos it after ∧
    w.ComesTo it bindings.locals s (.ok value, after') := by
  rw [Term.comesTo_iff] at once
  have admits : (Conduct.free it).Admits (w.eval Helper.standard it bindings.locals)
      fun v => v.HasTy it ty := admits_free Schema.standard_sound compiled values
  have typed := admits.answers mid
  have kept : s = mid ∨
      s.SameMemos it ((w.eval Helper.standard it bindings.locals).run.run mid).2 := by rwa [once]
  obtain ⟨answer, same⟩ := (admits.replays subject).repeated kept
  rw [once] at typed answer same
  exact ⟨typed, _, same, Term.comesTo_iff.2 (Prod.ext answer rfl)⟩

/-- The lambda finds out in all these sessions whether its element equals the wanted value. -/
theorem equalTo_run
    (deeper : wanted.compile .standard (⟨param, .scalar elem, false⟩ :: bindings.scopes) =
      .ok (u, ty))
    (comparable : comparable? .eq (.scalar elem) ty = some kind) (fresh : ¬wanted.Mentions param)
    (element : v.HasTy it (.scalar elem)) :
    ∃ after', ((Term.compare .eq kind (.slot bindings.scopes.length) u).eval Helper.standard it
        (bindings.locals.push v)).run.run s = (.ok (.bool (v.equals value)), after') ∧
      after'.SameMemos it after := by
  obtain ⟨typed, after', same, again⟩ := comesTo_again subject values compiled once steady
  have within : u.eval Helper.standard it (bindings.locals.push v) =
      w.eval Helper.standard it bindings.locals :=
    eval_insert (b := ⟨⟨param, .scalar elem, false⟩, v⟩) Schema.standard_sound
      Helper.standard_respects values element rfl fresh compiled deeper
  have top : (bindings.locals.push v)[bindings.scopes.length]? = some v := by
    rw [Bindings.length_scopes, ← Bindings.size_locals, Array.getElem?_push_size]
  refine ⟨after', ?_, same⟩
  rw [Term.comesTo_iff] at again
  simp only [Term.eval, top, pure_bind, within]
  rw [run_bind, again]
  dsimp only
  rw [Eval.compare_eq comparable element typed]
  rfl

end steady

/-- Searching a sequence of scalars is the same as comparing each of its elements, as long as the
wanted expression, which is evaluated once or for each element, has a value. The search itself
raises no fault. -/
theorem contains_agrees_with_equality {typed : Typed} (pos pos' : Nat)
    (subject : it.place = .subject) (values : bindings.Typed it)
    (sequence : source.compile .standard bindings.scopes = .ok (t, .list (.scalar elem)))
    (accepted : (source.contains wanted).compile .standard bindings.scopes = .ok typed)
    (fresh : ¬wanted.Mentions param) :
    ∃ c u, (source.contains wanted).compile .standard bindings.scopes = .ok (c, .bool) ∧
      (Expr.method source "Any" [equalTo pos pos' param wanted]).compile .standard bindings.scopes =
        .ok (u, .bool) ∧
      ∀ s, (∀ v mid, source.Yields it bindings s (.list (.scalar elem)) v mid →
          ∃ ty w after, wanted.Yields it bindings mid ty w after) →
        ∃ answer after after', c.ComesTo it bindings.locals s (answer, after) ∧
          u.ComesTo it bindings.locals s (answer, after') ∧
          (answer.isOk ∨ t.ComesTo it bindings.locals s (answer, after)) := by
  obtain ⟨w, ty, kind, compiled, comparable, rfl⟩ := contains_rule sequence accepted
  obtain ⟨u, deeper, within⟩ := compile_equalTo pos pos' compiled comparable fresh
  refine ⟨_, _, accepted, Typing.compile_query sequence rfl .any within, fun s faultless => ?_⟩
  have typed := (admits_free Schema.standard_sound sequence values).answers s
  change Conduct.Answers _ ((t.eval Helper.standard it bindings.locals).run.run s).1 _ at typed
  rcases found : (t.eval Helper.standard it bindings.locals).run.run s with ⟨_ | v, mid⟩
  · rw [← Term.comesTo_iff] at found
    exact ⟨_, mid, mid, Term.contains_fault found, Term.query_fault found, .inr found⟩
  · rw [found] at typed
    rw [← Term.comesTo_iff] at found
    obtain ⟨_, value, after, _, compiled', once⟩ := faultless v mid ⟨t, sequence, found⟩
    cases compiled.symm.trans compiled'
    cases typed with
    | @list vs _ elements =>
      obtain ⟨after', any⟩ := Term.comesTo_any (fun s => s = mid ∨ s.SameMemos it after)
        found rfl (fun v mem s steady => (equalTo_run subject values compiled once steady deeper
          comparable fresh (elements v mem)).imp fun _ h => ⟨h.1, .inr h.2⟩) (.inl rfl)
      exact ⟨_, after, after', Term.comesTo_contains found rfl once, any, .inl rfl⟩

/-- Whole numbers are searched for a double that depends on the parameter of a lambda around the
search. -/
theorem contains_agrees_with_equality_mixed :
    let bindings : Bindings := [⟨⟨"y", .int, false⟩, .int 3⟩]
    let source : Expr := .array 0 [.int 0 1, .int 0 2]
    let wanted : Expr := .binary (.compute .add) (.name 0 "y") (.real 0 0.5)
    ∃ c u, (source.contains wanted).compile .standard bindings.scopes = .ok (c, .bool) ∧
      (Expr.method source "Any" [equalTo 0 0 "e" wanted]).compile .standard bindings.scopes =
        .ok (u, .bool) ∧
      ∃ answer after after', c.ComesTo default bindings.locals {} (answer, after) ∧
        u.ComesTo default bindings.locals {} (answer, after') := by
  intro bindings source wanted
  have values : bindings.Typed default := List.forall_mem_singleton.2 (.int 3)
  have fresh : ¬wanted.Mentions "e" := by
    rw [mentions_iff]
    rintro (named | ⟨part, mem, within⟩)
    · cases named
    · simp only [wanted, parts, List.mem_cons, List.not_mem_nil, or_false] at mem
      rcases mem with rfl | rfl <;> rw [mentions_iff] at within <;> simp [parts, name?] at within
  have sequence : source.compile .standard bindings.scopes =
    .ok (.array [.literal (.int 1), .literal (.int 2)], .list (.scalar .int)) := rfl
  obtain ⟨c, u, accepted, accepted', same⟩ :=
    contains_agrees_with_equality 0 0 rfl values sequence rfl fresh
  obtain ⟨answer, after, after', contains, any, -⟩ :=
    same {} fun _ mid _ => ⟨.real, _, mid, _, rfl, rfl⟩
  exact ⟨c, u, accepted, accepted', answer, after, after', contains, any⟩

end Expr

end LootFilter
