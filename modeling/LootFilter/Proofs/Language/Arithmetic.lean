import LootFilter.Proofs.Language.Whole

/-!
# Sums in any order, and quotients

A sum of whole numbers does not depend on the order of a sequence's elements, and faults only with
the lambda. Quotients and remainders fault if and only if the divisor is zero, and belong together.
-/

namespace LootFilter

open Conduct (run_bind)
open Eval (pureOf)
open Session (Finds)
open Value (HasTy)

/-! ## Scans -/

namespace Session

variable {α β : Type} {root : Item} {f : α → EvalM β} {as : List α} {s : Session}

theorem finds_mapM {result : α → β} (each : ∀ a ∈ as, Finds root (f a).run (.ok (result a))) :
    Finds root (as.mapM f).run (.ok (as.map result)) := by
  induction as with
  | nil => exact .pure _
  | cons a as ih =>
    obtain ⟨first, others⟩ := List.forall_mem_cons.1 each
    rw [List.mapM_cons, ExceptT.run_bind]
    refine first.bind ?_
    change Finds root (as.mapM f >>= fun bs => pure (result a :: bs)).run _
    rw [ExceptT.run_bind]
    exact (ih others).bind (.pure _)

/-- A scan that comes to an end has a result for every element. -/
theorem exists_results {bs : List β} {after : Session}
    (each : ∀ a ∈ as, ∃ answer, Finds root (f a).run answer) (faithful : s.Faithful root)
    (run : (as.mapM f).run.run s = (.ok bs, after)) :
    ∀ a ∈ as, ∃ b, Finds root (f a).run (.ok b) := by
  induction as generalizing s bs after with
  | nil => exact nofun
  | cons a as ih =>
    obtain ⟨⟨answer, first⟩, others⟩ := List.forall_mem_cons.1 each
    obtain ⟨same, kept⟩ := first s faithful
    rw [List.mapM_cons, run_bind] at run
    generalize (f a).run.run s = one at run same kept
    obtain ⟨found, mid⟩ := one
    obtain rfl : found = answer := same
    cases found with
    | error fault => cases run
    | ok b =>
      dsimp only at run
      rw [run_bind] at run
      generalize rest : (as.mapM f).run.run mid = many at run
      obtain ⟨found, last⟩ := many
      cases found with
      | error fault => cases run
      | ok bs => exact List.forall_mem_cons.2 ⟨⟨b, first⟩, ih others kept rest⟩

end Session

/-! ## Sums -/

def Value.whole : Value → Int
  | int n => n.toInt
  | _ => 0

section lists

variable {it : Item} {vs vs' : List Value}

theorem mapM_number (typed : ∀ v ∈ vs, v.HasTy it .int) :
    vs.mapM Whole.number = pure (vs.map Value.whole) := by
  have each : ∀ v ∈ vs, Whole.number v = pure v.whole := by
    intro v mem
    cases typed v mem with
    | int n => rfl
  rw [Eval.mapM_congr each, List.mapM_pure]

theorem sumOf_whole (typed : ∀ v ∈ vs, v.HasTy it .int) :
    Eval.sumOf false pure vs = (pure (.int (Int64.ofInt (vs.map Value.whole).sum)) : EvalM Value) := by
  rw [Whole.sumOf_wrapped fun v mem => Whole.wrap_number (typed v mem), mapM_number typed, map_pure]

theorem sumOf_perm (typed : ∀ v ∈ vs, v.HasTy it .int) (same : vs.Perm vs') :
    (Eval.sumOf false pure vs : EvalM Value) = Eval.sumOf false pure vs' := by
  rw [sumOf_whole typed, sumOf_whole fun v mem => typed v (same.mem_iff.2 mem),
    (same.map Value.whole).sum_eq]

/-- If each element has its number at any time, sums in any order come to the same. -/
theorem sumOf_scan {f : Value → EvalM Value} {v : Value} {s s' after : Session}
    (typed : ∀ v ∈ vs, (Conduct.free it).Admits (f v) fun n => n.HasTy it .int)
    (each : ∀ v ∈ vs, ∃ answer, Finds it (f v).run answer) (same : vs.Perm vs')
    (faithful : s.Faithful it) (faithful' : s'.Faithful it)
    (run : (Eval.sumOf false f vs).run.run s = (.ok v, after)) :
    ∃ after', (Eval.sumOf false f vs').run.run s' = (.ok v, after') := by
  have apart (ws : List Value) (typed : ∀ v ∈ ws, (Conduct.free it).Admits (f v) fun n =>
      n.HasTy it .int) : Eval.sumOf false f ws = ws.mapM f >>= Eval.sumOf false pure :=
    Eval.sumOf_mapM (show Ty.int.isNumeric from rfl) typed
  have back : ∀ v ∈ vs', v ∈ vs := fun v mem => same.mem_iff.2 mem
  rw [apart vs typed, run_bind] at run
  generalize scan : (vs.mapM f).run.run s = scanned at run
  obtain ⟨numbers | numbers, mid⟩ := scanned
  · cases run
  -- The numbers are those of the elements, so they are the same for the other order.
  have results := Session.exists_results each faithful scan
  choose! result found using results
  obtain ⟨answer, -⟩ := Session.finds_mapM found s faithful
  rw [scan] at answer
  obtain rfl : numbers = vs.map result := Except.ok.inj answer
  have whole : ∀ n ∈ vs.map result, n.HasTy it .int := by
    refine List.forall_mem_map.2 fun v mem => ?_
    have answers := (typed v mem).answers s
    rw [(found v mem s faithful).1] at answers
    exact answers
  obtain ⟨answer', -⟩ := Session.finds_mapM (fun v mem => found v (back v mem)) s' faithful'
  refine ⟨((vs'.mapM f).run.run s').2, ?_⟩
  rw [apart vs' fun v mem => typed v (back v mem), run_bind]
  generalize (vs'.mapM f).run.run s' = scanned at answer' ⊢
  obtain ⟨_, mid'⟩ := scanned
  obtain rfl := answer'
  dsimp only at run ⊢
  rw [← sumOf_perm whole (same.map result)]
  rw [sumOf_whole whole] at run ⊢
  cases run
  rfl

end lists

namespace Expr

/-- The expression is accepted as one of the type, and its evaluation ends in this way. -/
def Ends (it : Item) (bindings : Bindings) (s : Session) (e : Expr) (ty : Ty)
    (run : Except Fault Value × Session) : Prop :=
  ∃ t, e.compile .standard bindings.scopes = .ok (t, ty) ∧ t.ComesTo it bindings.locals s run

/-- The expression comes to a sequence of the values. -/
def YieldsAll (it : Item) (bindings : Bindings) (s : Session) (e : Expr) (elem : Ty)
    (vs : List Value) (after : Session) : Prop :=
  ∃ ty v, e.Yields it bindings s ty v after ∧ ty.element? = some elem ∧ v.elements = .ok vs

variable {it : Item} {bindings : Bindings} {e source source' : Expr} {t : Term} {elem ty : Ty}
  {s s' mid mid' after : Session} {vs vs' : List Value} {binder : Binder} {body : Whole} {b : Term}
  {run : Except Fault Value × Session}

theorem comesTo_meaning (values : bindings.Typed it)
    (compiled : e.compile .standard bindings.scopes = .ok (t, ty)) :
    t.ComesTo it bindings.locals s run ↔ (e.meaning .standard it bindings).run.run s = run := by
  rw [Term.comesTo_iff]
  have means := (e.means Schema.standard_sound Helper.standard_respects).eval values compiled
  rw [← means]
  rfl

section sums

variable (values : bindings.Typed it)

include values

theorem YieldsAll.elements (h : source.YieldsAll it bindings s elem vs mid) :
    (Whole.elements it source bindings).run.run s = (.ok vs, mid) := by
  obtain ⟨ty, v, ⟨t, compiled, found⟩, -, sequence⟩ := h
  rw [comesTo_meaning values compiled] at found
  rw [Whole.elements, run_bind, found]
  dsimp only
  rw [sequence]
  rfl

theorem YieldsAll.typed (h : source.YieldsAll it bindings s elem vs mid) :
    ∀ v ∈ vs, v.HasTy it elem := by
  have elements := h.elements values
  obtain ⟨ty, v, ⟨t, compiled, -⟩, sequence, -⟩ := h
  exact (Whole.run_elements values compiled sequence elements).2

theorem YieldsAll.sum (h : source.YieldsAll it bindings s .int vs mid) :
    (Whole.sum source).expr.Yields it bindings s .int
      (.int (Int64.ofInt (vs.map Value.whole).sum)) mid := by
  have elements := h.elements values
  have typed := h.typed values
  obtain ⟨ty, v, ⟨t, compiled, -⟩, sequence, -⟩ := h
  have accepted : (Whole.sum source).expr.compile .standard bindings.scopes =
      .ok (.sum (Ty.int = .real) t, .int) := Typing.compile_method compiled sequence rfl
  refine ⟨_, accepted, (comesTo_meaning values accepted).2 ?_⟩
  rw [Whole.meaning_sum values compiled sequence rfl, run_bind, elements]
  dsimp only
  rw [sumOf_whole typed]
  rfl

theorem YieldsAll.sumOf_iff (h : source.YieldsAll it bindings s elem vs mid)
    (inner : body.expr.compile .standard (binder.scope elem :: bindings.scopes) = .ok (b, .int)) :
    ∃ t, (Whole.sumOf source binder body).expr.compile .standard bindings.scopes = .ok (t, .int) ∧
      ∀ run, t.ComesTo it bindings.locals s run ↔
        (Eval.sumOf false
          (fun v => body.expr.meaning .standard it (⟨binder.scope elem, v⟩ :: bindings))
          vs).run.run mid = run := by
  have elements := h.elements values
  obtain ⟨ty, v, ⟨t, compiled, -⟩, sequence, -⟩ := h
  have accepted : (Whole.sumOf source binder body).expr.compile .standard bindings.scopes =
      .ok (.query (.sum (Ty.int = .real)) t b, .int) :=
    Typing.compile_query compiled sequence (.sum rfl) (by cases binder <;> exact inner)
  refine ⟨_, accepted, fun run => ?_⟩
  rw [comesTo_meaning values accepted, Whole.meaning_sumOf values compiled sequence inner, run_bind,
    elements]

theorem YieldsAll.sumOf {numbers : List Int} (h : source.YieldsAll it bindings s elem vs mid)
    (inner : body.expr.compile .standard (binder.scope elem :: bindings.scopes) = .ok (b, .int))
    (scan : (vs.mapM fun v => body.exact it (⟨binder.scope elem, v⟩ :: bindings)).run.run mid =
      (.ok numbers, after)) :
    (Whole.sumOf source binder body).expr.Yields it bindings s .int
      (.int (Int64.ofInt numbers.sum)) after := by
  obtain ⟨t, accepted, comes⟩ := h.sumOf_iff values inner
  refine ⟨t, accepted, (comes _).2 ?_⟩
  have typed := h.typed values
  rw [Whole.sumOf_wrapped fun v mem =>
    Whole.meaning_eq_wrapped (Whole.typed_cons binder values (typed v mem)) body inner,
    Trial.run_map, scan]
  rfl

theorem YieldsAll.faithful (subject : it.place = .subject)
    (h : source.YieldsAll it bindings s elem vs mid) (before : s.Faithful it) : mid.Faithful it := by
  obtain ⟨ty, v, ⟨t, compiled, found⟩, -⟩ := h
  have admits := admits_free Schema.standard_sound compiled values
  have after := admits.preserves (fun allowed _ => allowed.faithful subject) before
  change Session.Faithful it ((t.eval Helper.standard it bindings.locals).run.run s).2 at after
  rwa [Term.comesTo_iff.1 found] at after

/-- If the lambda does not ask about lists of tags, each element has its number whenever it comes. -/
theorem finds_element (subject : it.place = .subject)
    (inner : body.expr.compile .standard (binder.scope elem :: bindings.scopes) = .ok (b, .int))
    (single : ¬(b.conduct Helper.standard it).lists) {v : Value} (h : v.HasTy it elem) :
    ∃ answer, Finds it
      (body.expr.meaning .standard it (⟨binder.scope elem, v⟩ :: bindings)).run answer := by
  have within := Whole.typed_cons binder values h
  have gives := (body.expr.isSound Schema.standard_sound).gives (C := b.conduct Helper.standard it)
    within inner (Conduct.permits_self it)
  have means := (body.expr.means Schema.standard_sound Helper.standard_respects).eval within inner
  have found := gives.finds subject single
  rwa [← means]

theorem YieldsAll.sumOf_perm {n : Int64} (subject : it.place = .subject) (before : s.Faithful it)
    (before' : s'.Faithful it) (h : source.YieldsAll it bindings s elem vs mid)
    (h' : source'.YieldsAll it bindings s' elem vs' mid') (same : vs.Perm vs')
    (inner : body.expr.compile .standard (binder.scope elem :: bindings.scopes) = .ok (b, .int))
    (single : ¬(b.conduct Helper.standard it).lists)
    (yields : (Whole.sumOf source binder body).expr.Yields it bindings s .int (.int n) after) :
    ∃ after', (Whole.sumOf source' binder body).expr.Yields it bindings s' .int (.int n) after' := by
  obtain ⟨t, compiled, found⟩ := yields
  obtain ⟨_, accepted, comes⟩ := h.sumOf_iff values inner
  obtain ⟨rfl, -⟩ := Prod.mk.inj (Except.ok.inj (compiled.symm.trans accepted))
  obtain ⟨t', accepted', comes'⟩ := h'.sumOf_iff values inner
  have typed := h.typed values
  have numbers (v : Value) (mem : v ∈ vs) :=
    Whole.admits_meaning (Whole.typed_cons binder values (typed v mem)) inner
  obtain ⟨after', run⟩ := sumOf_scan numbers
    (fun v mem => finds_element values subject inner single (typed v mem)) same
    (h.faithful values subject before) (h'.faithful values subject before') ((comes _).1 found)
  exact ⟨after', t', accepted', (comes' _).2 run⟩

end sums

/-! ## Quotients -/

section quotients

variable {l r : Expr} {m n : Int64} {v : Value}

theorem Yields.compute (a : Arithmetic) (first : l.Yields it bindings s .int (.int m) mid)
    (second : r.Yields it bindings mid .int (.int n) after) :
    (Expr.binary (.compute a) l r).Ends it bindings s .int
      (.int <$> Eval.wholeArithmetic a m n, after) := by
  obtain ⟨t, compiled, found⟩ := first
  obtain ⟨u, compiled', found'⟩ := second
  refine ⟨.compute a false t u, ?_, ?_⟩
  · rw [compile, compiled, compiled']
    cases a <;> rfl
  · rw [Term.comesTo_iff] at found found' ⊢
    rw [Term.eval, run_bind, found]
    dsimp only
    rw [run_bind, found']
    change (pureOf (Value.int <$> Eval.wholeArithmetic a m n) : EvalM Value).run.run after = _
    cases Eval.wholeArithmetic a m n <;> rfl

theorem Yields.equal (first : l.Yields it bindings s .int (.int m) mid)
    (second : r.Yields it bindings mid .int (.int m) after) :
    (Expr.binary (.compare .eq) l r).Yields it bindings s .bool (.bool true) after := by
  obtain ⟨t, compiled, found⟩ := first
  obtain ⟨u, compiled', found'⟩ := second
  refine ⟨.compare .eq .int t u, ?_, ?_⟩
  · rw [compile, compiled, compiled']
    rfl
  · rw [Term.comesTo_iff] at found found' ⊢
    rw [Term.eval, run_bind, found]
    dsimp only
    rw [run_bind, found']
    have same : Eval.compare .eq .int (.int m) (.int m) = .ok (.bool true) := by
      change Except.ok (Value.bool (Eval.holds .eq (compareOfLessAndEq m m))) = _
      simp [Eval.holds, compareOfLessAndEq]
    simp only [same]
    rfl

variable (subject : it.place = .subject) (values : bindings.Typed it)

include subject values

theorem Yields.grows (h : e.Yields it bindings s ty v after) : s.Below it after := by
  obtain ⟨t, compiled, found⟩ := h
  have replays := (admits_free Schema.standard_sound compiled values).replays subject
  have grows := replays.grows s
  change Session.Below it s ((t.eval Helper.standard it bindings.locals).run.run s).2 at grows
  rwa [Term.comesTo_iff.1 found] at grows

/-- While what was kept is kept, the expression comes to its value again, and no more is kept. -/
theorem Yields.again (h : e.Yields it bindings s ty v after) (kept : after.Below it s') :
    ∃ after', e.Yields it bindings s' ty v after' ∧ after'.SameMemos it s' := by
  obtain ⟨t, compiled, found⟩ := h
  have replays := (admits_free Schema.standard_sound compiled values).replays subject
  have below : Session.Below it ((t.eval Helper.standard it bindings.locals).run.run s).2 s' := by
    rwa [Term.comesTo_iff.1 found]
  obtain ⟨answer, same⟩ := replays.again s s' below
  change ((t.eval Helper.standard it bindings.locals).run.run s').1 =
    ((t.eval Helper.standard it bindings.locals).run.run s).1 at answer
  rw [Term.comesTo_iff.1 found] at answer
  refine ⟨((t.eval Helper.standard it bindings.locals).run.run s').2, ?_, same⟩
  exact ⟨t, compiled, Term.comesTo_iff.2 (Prod.ext answer rfl)⟩

/-- Quotient and remainder make up the dividend, however often both operands are evaluated. -/
theorem Yields.divided (first : l.Yields it bindings s .int (.int m) mid)
    (second : r.Yields it bindings mid .int (.int n) after) (nonzero : n ≠ 0) :
    let quotient : Expr := .binary (.compute .div) l r
    let remainder : Expr := .binary (.compute .rem) l r
    let product : Expr := .binary (.compute .mul) quotient r
    ∃ last, (Expr.binary (.compare .eq) (.binary (.compute .add) product remainder) l).Yields it
      bindings s .bool (.bool true) last := by
  intro quotient remainder product
  have right {s' : Session} (kept : after.Below it s') :
      ∃ last, r.Yields it bindings s' .int (.int n) last ∧ after.Below it last := by
    obtain ⟨last, yields, same⟩ := second.again subject values kept
    exact ⟨last, yields, kept.trans same.symm.below⟩
  have left {s' : Session} (kept : after.Below it s') :
      ∃ last, l.Yields it bindings s' .int (.int m) last ∧ after.Below it last := by
    have before := (second.grows subject values).trans kept
    obtain ⟨last, yields, same⟩ := first.again subject values before
    exact ⟨last, yields, kept.trans same.symm.below⟩
  have refl : after.Below it after := fun _ _ => .refl _
  obtain ⟨s₁, divisor, kept⟩ := right refl
  obtain ⟨s₂, dividend, kept⟩ := left kept
  obtain ⟨s₃, divisor', kept⟩ := right kept
  obtain ⟨s₄, whole, kept⟩ := left kept
  have divides : quotient.Yields it bindings s .int (.int (m / n)) after := by
    have ends := first.compute .div second
    rwa [Eval.wholeArithmetic, if_neg nonzero] at ends
  have multiplies : product.Yields it bindings s .int (.int (m / n * n)) s₁ :=
    divides.compute .mul divisor
  have rest : remainder.Yields it bindings s₁ .int (.int (m % n)) s₃ := by
    have ends := dividend.compute .rem divisor'
    rwa [Eval.wholeArithmetic, if_neg nonzero] at ends
  have sum : (Expr.binary (.compute .add) product remainder).Yields it bindings s .int
      (.int (m / n * n + m % n)) s₃ := multiplies.compute .add rest
  have same : m / n * n + m % n = m := by
    simp only [← Int64.toInt_inj, Int64.toInt_add, Int64.toInt_mul, Int64.toInt_div,
      Int64.toInt_mod, Int.bmod_mul_bmod, Int.bmod_add_bmod, Int.tdiv_mul_add_tmod]
    exact Int64.toInt_bmod m
  rw [same] at sum
  exact ⟨s₄, sum.equal whole⟩

end quotients

end Expr

/-! ## Rules -/

/-- How the rules of an item compute with whole numbers. -/
structure Item.WrapsOnce (it : Item) : Prop where
  /-- An accepted expression comes to the exact number, wrapped around once. -/
  value : ∀ {w : Whole} {bindings : Bindings} {t : Term}, bindings.Typed it →
    w.expr.compile .standard bindings.scopes = .ok (t, .int) →
      ∀ s, t.ComesTo it bindings.locals s ((w.wrapped it bindings).run.run s)
  /-- It faults only if a condition, a sequence or what a field is taken from does. -/
  fault : ∀ {w : Whole} {bindings : Bindings} {t : Term} {s after : Session} {fault : Fault},
    bindings.Typed it → w.expr.compile .standard bindings.scopes = .ok (t, .int) →
      t.ComesTo it bindings.locals s (.error fault, after) →
        ∃ visit, w.Visits it bindings s visit ∧ visit.outcome it = (.error fault, after)
  sum : ∀ {bindings : Bindings} {source source' : Expr} {s s' mid mid' : Session}
    {vs vs' : List Value}, bindings.Typed it → source.YieldsAll it bindings s .int vs mid →
      source'.YieldsAll it bindings s' .int vs' mid' → vs.Perm vs' →
        ∃ n, (Whole.sum source).expr.Yields it bindings s .int (.int n) mid ∧
          (Whole.sum source').expr.Yields it bindings s' .int (.int n) mid'
  /-- The numbers that a lambda gives may come in any order, whatever the elements are. -/
  sumOf : ∀ {bindings : Bindings} {source source' : Expr} {s s' mid mid' after after' : Session}
    {elem : Ty} {vs vs' : List Value} {numbers numbers' : List Int} {binder : Binder} {body : Whole}
    {b : Term}, bindings.Typed it →
      body.expr.compile .standard (binder.scope elem :: bindings.scopes) = .ok (b, .int) →
      source.YieldsAll it bindings s elem vs mid → source'.YieldsAll it bindings s' elem vs' mid' →
      (vs.mapM fun v => body.exact it (⟨binder.scope elem, v⟩ :: bindings)).run.run mid =
        (.ok numbers, after) →
      (vs'.mapM fun v => body.exact it (⟨binder.scope elem, v⟩ :: bindings)).run.run mid' =
        (.ok numbers', after') → numbers.Perm numbers' →
        ∃ n, (Whole.sumOf source binder body).expr.Yields it bindings s .int (.int n) after ∧
          (Whole.sumOf source' binder body).expr.Yields it bindings s' .int (.int n) after'
  /-- So may the elements, as long as what a lambda is told about one depends on no other, which
  only questions about lists of tags do. -/
  sumOf_elements : ∀ {bindings : Bindings} {source source' : Expr} {s s' mid mid' after : Session}
    {elem : Ty} {vs vs' : List Value} {binder : Binder} {body : Whole} {b : Term} {n : Int64},
    bindings.Typed it → s.Reached it → s'.Reached it →
      body.expr.compile .standard (binder.scope elem :: bindings.scopes) = .ok (b, .int) →
      ¬(b.conduct Helper.standard it).lists →
      source.YieldsAll it bindings s elem vs mid → source'.YieldsAll it bindings s' elem vs' mid' →
      vs.Perm vs' →
      (Whole.sumOf source binder body).expr.Yields it bindings s .int (.int n) after →
        ∃ after', (Whole.sumOf source' binder body).expr.Yields it bindings s' .int (.int n) after'
  quotient : ∀ {bindings : Bindings} {l r : Expr} {m n : Int64} {s mid after : Session},
    l.Yields it bindings s .int (.int m) mid → r.Yields it bindings mid .int (.int n) after →
      (Expr.binary (.compute .div) l r).Ends it bindings s .int
          (if n = 0 then .error .divideByZero else .ok (.int (m / n)), after) ∧
        (Expr.binary (.compute .rem) l r).Ends it bindings s .int
          (if n = 0 then .error .divideByZero else .ok (.int (m % n)), after)
  /-- Quotient and remainder make up the dividend, within the language. -/
  divided : ∀ {bindings : Bindings} {l r : Expr} {m n : Int64} {s mid after : Session},
    bindings.Typed it → l.Yields it bindings s .int (.int m) mid →
      r.Yields it bindings mid .int (.int n) after → n ≠ 0 →
        let quotient : Expr := .binary (.compute .div) l r
        let remainder : Expr := .binary (.compute .rem) l r
        let product : Expr := .binary (.compute .mul) quotient r
        ∃ last, (Expr.binary (.compare .eq) (.binary (.compute .add) product remainder) l).Yields it
          bindings s .bool (.bool true) last

theorem Item.wraps_once {it : Item} (subject : it.place = .subject) : it.WrapsOnce where
  value values compiled s := by
    rw [Expr.comesTo_meaning values compiled, Whole.meaning_eq_wrapped values _ compiled]
  fault values compiled comes := by
    rw [Expr.comesTo_meaning values compiled, Whole.meaning_eq_wrapped values _ compiled,
      Whole.wrapped, map_eq_pure_bind] at comes
    rcases Whole.fault_of_bind comes with fails | ⟨n, mid, -, ⟨⟩⟩
    exact Whole.fault_visited _ values compiled fails
  sum values h h' same := by
    refine ⟨_, h.sum values, ?_⟩
    rw [(same.map Value.whole).sum_eq]
    exact h'.sum values
  sumOf values inner h h' scan scan' same := by
    refine ⟨_, h.sumOf values inner scan, ?_⟩
    rw [same.sum_eq]
    exact h'.sumOf values inner scan'
  sumOf_elements values reached reached' inner single h h' same yields :=
    h.sumOf_perm values subject (reached.faithful subject) (reached'.faithful subject) h' same inner
      single yields
  quotient := by
    intro bindings l r m n s mid after first second
    have ends := first.compute .div second
    have ends' := first.compute .rem second
    simp only [Eval.wholeArithmetic] at ends ends'
    split
    · rename_i zero
      rw [if_pos zero] at ends ends'
      exact ⟨ends, ends'⟩
    · rename_i nonzero
      rw [if_neg nonzero] at ends ends'
      exact ⟨ends, ends'⟩
  divided values first second nonzero := first.divided subject values second nonzero

/-- The ends of the range: a sum that is wrapped around, and the one quotient that is. -/
theorem Item.wraps_once_extremes :
    let it := Item.snapshot default none none
    let least : Expr := .int 0 (-9223372036854775808)
    let greatest : Expr := .int 0 9223372036854775807
    let one : Expr := .int 0 1
    let minus : Expr := .int 0 (-1)
    let quotient : Expr := .binary (.compute .div) least minus
    let remainder : Expr := .binary (.compute .rem) least minus
    let product : Expr := .binary (.compute .mul) quotient minus
    it.place = .subject ∧ it.WrapsOnce ∧
      (Whole.sum (.array 0 [greatest, one])).expr.Yields it [] {} .int (.int Int64.minValue) {} ∧
      (∃ n, (Whole.sum (.array 0 [greatest, one])).expr.Yields it [] {} .int (.int n) {} ∧
        (Whole.sum (.array 0 [one, greatest])).expr.Yields it [] {} .int (.int n) {}) ∧
      ∃ last, (Expr.binary (.compare .eq) (.binary (.compute .add) product remainder) least).Yields
        it [] {} .bool (.bool true) last := by
  intro it least greatest one minus quotient remainder product
  have wraps : it.WrapsOnce := wraps_once rfl
  have values : Bindings.Typed it [] := nofun
  have array (first second : Expr) (m n : Int)
      (h : first = .int 0 m ∧ second = .int 0 n) : (Expr.array 0 [first, second]).YieldsAll it [] {}
        .int [.int (Int64.ofInt m), .int (Int64.ofInt n)] {} := by
    obtain ⟨rfl, rfl⟩ := h
    exact ⟨_, _, ⟨_, rfl, rfl⟩, rfl, rfl⟩
  have literal (n : Int) : (Expr.int 0 n).Yields it [] {} .int (.int (Int64.ofInt n)) {} :=
    ⟨_, rfl, rfl⟩
  have forwards := array greatest one _ _ ⟨rfl, rfl⟩
  have backwards := array one greatest _ _ ⟨rfl, rfl⟩
  have divided := wraps.divided values (literal (-9223372036854775808)) (literal (-1)) (by decide)
  refine ⟨rfl, wraps, ?_, wraps.sum values forwards backwards (.swap ..), divided⟩
  exact ⟨_, rfl, wraps.value (w := .sum (.array 0 [greatest, one])) values rfl {}⟩

end LootFilter
