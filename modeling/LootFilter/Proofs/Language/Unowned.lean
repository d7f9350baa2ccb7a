import LootFilter.Proofs.Language.Accepted
import LootFilter.Proofs.Language.Names
import LootFilter.Proofs.Session.Alike

/-!
# Helpers about what the player lacks

A helper that is passed a criterion calls it on a stack of its own, made of the values that stood
there when the criterion was passed. That comes to the same as writing down, in place of the call,
what the helper does: to apply the criterion to the item itself, and to the owned items in a query.
-/

namespace LootFilter

open Eval (pureOf)
open Machine (withLocal outcome ActsAs)

/-- The standard schema with further helpers, such as those that show what they are passed. -/
def Schema.extended (further : List Helper) : Schema :=
  { standard with helpers := Helper.standard ++ further }

namespace Eval

/-- Both hold; the second is only asked for if the first does. -/
def both {m : Type → Type} [Monad m] [MonadExcept Fault m] (left right : m Value) : m Value := do
  if ← pureOf (← left).asBool then return .bool (← pureOf (← right).asBool) else return .bool false

/-- The lambda holds for no element of the sequence. -/
def lacks (f : Value → EvalM Value) (v : Value) : EvalM Value := do
  let found ← query .any f v
  return .bool (!(← pureOf found.asBool))

theorem anyM_map {α β : Type} (g : α → β) (test : β → EvalM Bool) (as : List α) :
    (as.map g).anyM test = as.anyM fun a => test (g a) := by
  induction as with
  | nil => rfl
  | cons a as ih => rw [List.map_cons, List.anyM, List.anyM, ih]

end Eval

theorem Term.run_and (helpers : List Helper) (root : Item) (t u : Term) :
    (logical .and [t, u]).run helpers root =
      Eval.both (t.run helpers root) (u.run helpers root) := by
  simp only [run, runLogical, Eval.both, bind_assoc, LogicalOp.neutral]
  refine bind_congr fun v => bind_congr fun b => ?_
  cases b with
  | true =>
    simp only [if_true, bind_assoc]
    refine bind_congr fun w => bind_congr fun b => ?_
    cases b <;> rfl
  | false => rfl

theorem Machine.actsAs_both {locals : Locals} {e e' : Machine Value} {plain plain' : EvalM Value}
    (left : e.ActsAs locals plain) (right : e'.ActsAs locals plain') :
    (Eval.both e e').ActsAs locals (Eval.both plain plain') := by
  apply left.bind
  intro v
  refine (actsAs_pureOf v.asBool).bind fun b => ?_
  cases b with
  | true => exact right.bind fun w => (actsAs_pureOf w.asBool).bind fun b => actsAs_pure _
  | false => exact actsAs_pure _

namespace Item

variable {it : Item}

def records (owned : List Item) : Value := .list (owned.map fun other => .record (.item other))

theorem hasTy_records {owned : List Item} (family : ∀ other ∈ owned, it.Family other) :
    (records owned).HasTy it (.list (.record .item)) := by
  refine .list fun v mem => ?_
  obtain ⟨other, owned, rfl⟩ := List.mem_map.1 mem
  exact .record (r := .item other) (family other owned)

theorem isUnowned_inline (owned : List Item) (f : Value → EvalM Value) :
    .bool <$> it.isUnowned owned (fun other => Eval.test f (.record (.item other))) =
      Eval.both (f (.record (.item it))) (Eval.lacks f (records owned)) := by
  have lacks : Eval.lacks f (records owned) =
      (Value.bool <| !·) <$> owned.anyM fun other => Eval.test f (.record (.item other)) := by
    simp only [Eval.lacks, Eval.query, records, Value.elements, Eval.queryElements, Eval.anyM_map,
      pureOf, bind_assoc, pure_bind, Value.asBool, map_eq_pure_bind]
  rw [lacks, isUnowned, Eval.both, Eval.test]
  simp only [map_eq_pure_bind, bind_assoc]
  refine bind_congr fun v => bind_congr fun b => ?_
  cases b with
  | true => simp only [if_true, bind_assoc, pure_bind, pureOf, Value.asBool]
  | false => rfl

theorem isUnownedGem_inline (test : Item → EvalM Bool) : .bool <$> it.isUnownedGem test =
    Eval.both (pure (.bool it.isGem)) (.bool <$> it.isUnowned it.viewer.ownedGems test) := by
  rw [isUnownedGem, Eval.both]
  cases it.isGem with
  | true => simp only [if_true, pureOf, Value.asBool, map_eq_pure_bind, bind_assoc, pure_bind]
  | false => rfl

theorem isGem_eq (it : Item) : it.isGem = it.attributes.gem.isSome := by
  rw [isGem, gemAttributes]
  cases it.attributes.gem <;> rfl

end Item

/-! ## The tables -/

/-- The expression is accepted where nothing is around it. On any stack its term comes to the value,
and changes nothing but what was asked for. -/
def Expr.StandsFor (schema : Schema) (it : Item) (e : Expr) (t : Term) (ty : Ty) (v : Value) :
    Prop :=
  e.compile schema [] = .ok (t, ty) ∧ ∀ locals s, ∃ requests,
    outcome (t.run schema.helpers it) locals s = ((.ok v, locals), { s with requests })

def Expr.ofPlayer (field : String) : Expr := .member (.name 0 "PlayerInfo") field

section tables

variable (further : List Helper) (it : Item)

theorem standsFor_ownedItems : ∃ t, (Expr.ofPlayer "OwnedItems").StandsFor (.extended further) it t
    (.list (.record .item)) (Item.records it.viewer.ownedItems) :=
  ⟨_, rfl, fun _ _ => ⟨_, rfl⟩⟩

theorem standsFor_ownedGems : ∃ t, (Expr.ofPlayer "OwnedGems").StandsFor (.extended further) it t
    (.list (.record .item)) (Item.records it.viewer.ownedGems) :=
  ⟨_, rfl, fun _ _ => ⟨_, rfl⟩⟩

theorem standsFor_isGem : ∃ t, (Expr.member (.name 0 "GemInfo") "IsGem").StandsFor
    (.extended further) it t .bool (.bool it.isGem) :=
  ⟨_, rfl, fun _ _ => ⟨_, rfl⟩⟩

theorem choose_isUnownedItem : ∃ index helper,
    Typing.choose? "IsUnownedItem" [none] 0 (Schema.extended further).helpers =
      some (index, helper, .absent) ∧
    helper.params = [.criterion (.record .item)] ∧ helper.returns = .bool ∧
    ∀ test, helper.call it [.lambda test] =
      .bool <$> it.isUnownedItem fun other => test (.record (.item other)) :=
  ⟨_, _, rfl, rfl, rfl, fun _ => rfl⟩

theorem choose_isUnownedGem : ∃ index helper,
    Typing.choose? "IsUnownedGem" [none] 0 (Schema.extended further).helpers =
      some (index, helper, .absent) ∧
    helper.params = [.criterion (.record .item)] ∧ helper.returns = .bool ∧
    ∀ test, helper.call it [.lambda test] =
      .bool <$> it.isUnownedGem fun other => test (.record (.item other)) :=
  ⟨_, _, rfl, rfl, rfl, fun _ => rfl⟩

end tables

/-! ## Calls -/

/-- On the stack both do the same, and leave sessions that are alike. -/
def Machine.SameAs (locals : Locals) (e e' : Machine Value) : Prop :=
  ∀ s, (outcome e locals s).1 = (outcome e' locals s).1 ∧
    (outcome e locals s).2.Alike (outcome e' locals s).2

theorem Machine.ActsAs.sameAs {locals : Locals} {e e' : Machine Value} {plain plain' : EvalM Value}
    (h : e.ActsAs locals plain) (h' : e'.ActsAs locals plain') (same : Eval.Alike plain plain') :
    e.SameAs locals e' := by
  intro s
  obtain ⟨answer, after⟩ := same s s (Session.alike_requests s s.requests)
  rw [h s, h' s, answer]
  exact ⟨rfl, after⟩

theorem Expr.StandsFor.alike {schema : Schema} {it : Item} {e : Expr} {t : Term} {ty : Ty}
    {v : Value} (h : e.StandsFor schema it t ty v) (locals : Locals) :
    Eval.Alike (pure v) (t.eval schema.helpers it locals) := by
  intro s s' same
  obtain ⟨requests, run⟩ := h.2 locals s'
  rw [Term.run_actsAs] at run
  have answer := congrArg (fun run => run.1.1) run
  have after := congrArg Prod.snd run
  dsimp only at answer after
  rw [answer, after]
  exact ⟨rfl, same.memos, same.priceQueries, same.log, same.shown⟩

theorem Eval.Alike.both {C : Conduct} {e e' e₁ e₁' : EvalM Value} (left : Eval.Alike e e')
    (right : Eval.Alike e₁ e₁') (answers : C.Admits e fun v => v.HasTy C.root .bool)
    (answers' : C.Admits e₁ fun v => v.HasTy C.root .bool) :
    Eval.Alike (Eval.both e e₁) (Eval.both e' e₁') := by
  refine left.bind answers fun v bool => ?_
  have read := (Conduct.answers_asBool bool).admits
  refine (alike_of_admits read).bind read fun b _ => ?_
  cases b with
  | true =>
    refine right.bind answers' fun w bool => ?_
    have read := (Conduct.answers_asBool bool).admits
    exact alike_of_admits (P := fun _ => True) (read.bind fun b _ => .pure trivial)
  | false => exact fun _ _ same => ⟨rfl, same⟩

section calls

variable {schema : Schema} {it : Item} {locals : Locals} {body t : Term} {list : Expr}
  {owned : List Item}

/-- The criterion with the body of the item itself, and `!t.Any` of the criterion. -/
def Term.unownedAmong (schema : Schema) (it : Item) (body t : Term) : Machine Value :=
  Eval.both (withLocal (.record (.item it)) (body.run schema.helpers it))
    ((not (.query .any t body)).run schema.helpers it)

theorem Term.actsAs_unownedAmong : (unownedAmong schema it body t).ActsAs locals
    (Eval.both (body.eval schema.helpers it (locals.push (.record (.item it))))
      ((not (.query .any t body)).eval schema.helpers it locals)) :=
  Machine.actsAs_both (run_actsAs _ _ body _).withLocal (run_actsAs _ _ _ locals)

theorem alike_unowned {f : Value → EvalM Value} {e : EvalM Value}
    (family : ∀ other ∈ owned, it.Family other)
    (read : Eval.Alike (pure (Item.records owned)) e)
    (lambda : ∀ v, v.HasTy it (.record .item) →
      (Conduct.free it).Admits (f v) fun v => v.HasTy it .bool) :
    Eval.Alike
      (.bool <$> it.isUnowned owned fun other => Eval.test f (.record (.item other)))
      (Eval.both (f (.record (.item it))) (e >>= Eval.lacks f)) := by
  have self := lambda _ (.record (r := .item it) .self)
  have none : (Conduct.free it).Admits (Eval.lacks f (Item.records owned)) fun v =>
      v.HasTy it .bool := by
    refine (Conduct.admits_query rfl .any nofun (Item.hasTy_records family) lambda).bind ?_
    intro found bool
    exact (Conduct.answers_asBool bool).admits.bind fun b _ => .pure (.bool _)
  rw [Item.isUnowned_inline]
  refine (Eval.alike_of_admits self).both ?_ self none
  rw [← pure_bind (Item.records owned) (Eval.lacks f)]
  refine read.bind (C := .free it) (P := (· = Item.records owned)) (.pure rfl) ?_
  rintro _ rfl
  exact Eval.alike_of_admits none

theorem call_criterion {bindings : Bindings} {name param : String} {criterion : Expr} {index : Nat}
    {helper : Helper} (other : name ≠ "iif")
    (chosen : Typing.choose? name [none] 0 schema.helpers = some (index, helper, .absent))
    (takes : helper.params = [.criterion (.record .item)])
    (returns : helper.returns = .bool)
    (compiled : criterion.compile schema (⟨param, .record .item, false⟩ :: bindings.scopes) =
      .ok (body, .bool)) (pos place : Nat) :
    ∃ t, (Expr.call pos name [.lambda place param criterion]).compile schema bindings.scopes =
        .ok (t, .bool) ∧
      t.eval schema.helpers it bindings.locals = helper.call it
        [.lambda (Eval.test fun v => body.eval schema.helpers it (bindings.locals.push v))] := by
  have accepted := Typing.compile_criterion (.record .item) pos place other chosen takes compiled
  refine ⟨_, returns ▸ accepted, ?_⟩
  obtain ⟨⟨n, rfl, found⟩, -, -⟩ := Typing.choose?_found chosen
  simp only [Term.eval, Term.evalArgs, pure_bind, Bindings.take_locals, Eval.callHelper,
    Nat.zero_add, found]

/-- What the helpers do that are called with the criterion `c`, whose body is compiled to `body`. -/
structure Unowned.Inlined (schema : Schema) (it : Item) (bindings : Bindings) (c : Arg Expr)
    (body : Term) : Prop where
  /-- `c` of the item itself, and `!PlayerInfo.OwnedItems.Any(c)`. -/
  item : ∃ owned, (Expr.ofPlayer "OwnedItems").StandsFor schema it owned (.list (.record .item))
      (Item.records (it.viewer.equippedItems ++ it.viewer.inventoryItems)) ∧
    ∀ pos, ∃ t,
      (Expr.call pos "IsUnownedItem" [c]).compile schema bindings.scopes = .ok (t, .bool) ∧
      Machine.SameAs bindings.locals (t.run schema.helpers it)
        (Term.unownedAmong schema it body owned)
  /-- `GemInfo.IsGem`, `c` of the item itself, and `!PlayerInfo.OwnedGems.Any(c)`. -/
  gem : ∃ isGem owned, (Expr.member (.name 0 "GemInfo") "IsGem").StandsFor schema it isGem .bool
      (.bool it.attributes.gem.isSome) ∧
    (Expr.ofPlayer "OwnedGems").StandsFor schema it owned (.list (.record .item))
      (Item.records (((it.viewer.equippedItems ++ it.viewer.inventoryItems).flatMap fun other =>
        other :: other.gems).filter (·.attributes.gem.isSome))) ∧
    ∀ pos, ∃ t,
      (Expr.call pos "IsUnownedGem" [c]).compile schema bindings.scopes = .ok (t, .bool) ∧
      Machine.SameAs bindings.locals (t.run schema.helpers it)
        (Eval.both (isGem.run schema.helpers it) (Term.unownedAmong schema it body owned))
  /-- How `!PlayerInfo.OwnedItems.Any(c)` and the like are compiled in the place of the call. -/
  query : ∀ field owned,
    (Expr.ofPlayer field).compile schema bindings.scopes = .ok (owned, .list (.record .item)) →
      ∀ pos, (Expr.unary pos .not (.method (.ofPlayer field) "Any" [c])).compile schema
        bindings.scopes = .ok (.not (.query .any owned body), .bool)
  /-- How `&&` is run. -/
  both : ∀ t u, (Term.logical .and [t, u]).run schema.helpers it =
    Eval.both (t.run schema.helpers it) (u.run schema.helpers it)

/-- A helper about what the player lacks does what its inline form does. Among the further helpers
may be one that shows what it is passed, so criteria are called for the same items in one order. -/
theorem Unowned.inlined {further : List Helper} (sound : (Schema.extended further).Sound)
    {it : Item} {bindings : Bindings} (values : bindings.Typed it) {param : String}
    {criterion : Expr} {body : Term}
    (compiled : criterion.compile (.extended further)
      (⟨param, .record .item, false⟩ :: bindings.scopes) = .ok (body, .bool)) (place : Nat) :
    Inlined (.extended further) it bindings (.lambda place param criterion) body := by
  let f (v : Value) := body.eval (Schema.extended further).helpers it (bindings.locals.push v)
  have lambda (v : Value) (h : v.HasTy it (.record .item)) :
      (Conduct.free it).Admits (f v) fun v => v.HasTy it .bool := by
    have typed := Expr.admits_free sound compiled (values.cons ⟨param, .record .item, false⟩ h)
    rwa [Bindings.locals_cons] at typed
  refine ⟨?_, ?_, ?_, Term.run_and _ it⟩
  · obtain ⟨owned, reads⟩ := standsFor_ownedItems further it
    obtain ⟨index, helper, chosen, takes, returns, call⟩ := choose_isUnownedItem further it
    refine ⟨owned, reads, fun pos => ?_⟩
    obtain ⟨t, accepted, called⟩ :=
      call_criterion (by decide) chosen takes returns compiled pos place
    refine ⟨t, accepted, (Term.run_actsAs _ _ t _).sameAs Term.actsAs_unownedAmong ?_⟩
    rw [called, call, Item.isUnownedItem]
    simp only [Term.eval, bind_assoc]
    exact alike_unowned (fun _ => .viewed) (reads.alike bindings.locals) lambda
  · obtain ⟨isGem, readsGem⟩ := standsFor_isGem further it
    obtain ⟨owned, reads⟩ := standsFor_ownedGems further it
    obtain ⟨index, helper, chosen, takes, returns, call⟩ := choose_isUnownedGem further it
    have isSome : Item.isGem = fun other => other.attributes.gem.isSome := funext Item.isGem_eq
    have gems : it.viewer.ownedGems = ((it.viewer.equippedItems ++ it.viewer.inventoryItems).flatMap
        fun other => other :: other.gems).filter (·.attributes.gem.isSome) := by
      rw [Player.ownedGems, Player.ownedItems, isSome]
    refine ⟨isGem, owned, Item.isGem_eq it ▸ readsGem, gems ▸ reads, fun pos => ?_⟩
    obtain ⟨t, accepted, called⟩ :=
      call_criterion (by decide) chosen takes returns compiled pos place
    refine ⟨t, accepted, (Term.run_actsAs _ _ t _).sameAs
      (Machine.actsAs_both (Term.run_actsAs _ _ isGem _) Term.actsAs_unownedAmong) ?_⟩
    rw [called, call, Item.isUnownedGem_inline]
    simp only [Term.eval, bind_assoc]
    have unowned := alike_unowned (fun _ => .viewedGem) (reads.alike bindings.locals) lambda
    refine (readsGem.alike bindings.locals).both (C := .free it) unowned (.pure (.bool _)) ?_
    refine (Item.admits_isUnowned .self (fun _ => .viewedGem) fun other family => ?_).map
      fun b _ => .bool b
    exact Conduct.admits_test (lambda _ (.record (r := .item other) family))
  · intro field owned found pos
    exact Typing.compile_not pos (Typing.compile_query found rfl .any compiled)

end calls

/-! ## Helpers that show -/

theorem Helper.showing_sound {ty : Ty} (value : ∀ elem, ty ≠ .criterion elem) :
    (showing ty).Sound := by
  refine .of_one rfl fun C _ arg suits => ?_
  cases suits with
  | lambda => cases value _ rfl
  | value =>
    refine admits_reading (ReadArgs.reads_value _ ty.name).answers fun v _ => ?_
    have shown : C.Admits (liftM (Session.display v)) fun _ => True :=
      .ask (.display v) fun _ => trivial
    exact shown.bind fun _ _ => .pure (.bool true)

theorem Schema.traced_sound : traced.Sound where
  helpers := by
    refine List.forall_mem_append.2 ⟨Helper.standard_sound, List.forall_mem_map.2 fun ty mem => ?_⟩
    refine Helper.showing_sound fun elem criterion => ?_
    subst criterion
    simp [Helper.showable] at mem
  variadic := by
    refine List.forall_mem_append.2 ⟨standard_sound.variadic, List.forall_mem_map.2 ?_⟩
    exact fun _ _ _ => nofun

/-- Within a lambda with the parameter "t", a criterion that shows each item it is called for. -/
theorem Unowned.inlined_showing :
    let c := Arg.lambda 0 "x" (.logical .and (.call 0 "Show" [.plain (.name 0 "x")])
      [.binary (.compare .eq) (.member (.name 0 "x") "BaseName") (.name 0 "t")])
    let bindings : Bindings := [⟨⟨"t", .text, false⟩, .text "Ring"⟩]
    let it : Item := { place := .subject, attributes := default, player := some default }
    ∃ body, Unowned.Inlined .traced it bindings c body := by
  intro c bindings it
  have values : bindings.Typed it := by
    refine List.forall_mem_singleton.2 ?_
    exact .text "Ring"
  exact ⟨_, inlined Schema.traced_sound values rfl 0⟩

end LootFilter
