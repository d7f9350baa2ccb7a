import LootFilter.Proofs.Language.Compile

/-!
# What the rules allow is accepted

The compiler accepts what the typing rules have a term for: methods with and without a lambda, and
calls of helpers with a criterion.
-/

namespace LootFilter

theorem Ty.toElem?_of_element? {ty elem : Ty} (sequence : ty.element? = some elem) :
    ∃ e, elem.toElem? = some e ∧ e.toTy = elem := by
  cases ty with
  | list e =>
    cases sequence
    cases e <;> exact ⟨_, rfl, rfl⟩
  | mods =>
    cases sequence
    exact ⟨_, rfl, rfl⟩
  | _ => cases sequence

theorem Ty.toElem?_of_isNumeric {ty : Ty} (numeric : ty.isNumeric) :
    ∃ e, ty.toElem? = some e ∧ e.toTy = ty := by
  unfold Ty.isNumeric at numeric
  split at numeric
  · exact ⟨_, rfl, rfl⟩
  · exact ⟨_, rfl, rfl⟩
  · cases numeric

namespace Typing

variable {schema : Schema} {scopes : Scopes} {source : Expr} {t : Term} {ty elem : Ty}

theorem ok_bind {ε α β : Type} (a : α) (f : α → Except ε β) : Except.ok a >>= f = f a := rfl

theorem compile_not {e : Expr} (pos : Nat) (compiled : e.compile schema scopes = .ok (t, .bool)) :
    (Expr.unary pos .not e).compile schema scopes = .ok (.not t, .bool) := by
  rw [Expr.compile, compiled]
  rfl

theorem compile_method {name : String} {args : List (Arg Expr)} {typed : Typed}
    (compiled : source.compile schema scopes = .ok (t, ty)) (sequence : ty.element? = some elem)
    (found : sequenceMethod t ty elem name (args.map (pendingArg schema)) scopes source.pos =
      .ok (some typed)) : (Expr.method source name args).compile schema scopes = .ok typed := by
  rw [Expr.compile, compiled, pendingArgs_eq_map]
  change method (t, ty) name (args.map (pendingArg schema)) scopes source.pos = _
  cases ty <;> cases sequence <;> simp only [method, Ty.element?, found] <;> rfl

theorem compile_query (compiled : source.compile schema scopes = .ok (t, ty))
    (sequence : ty.element? = some elem) {q : Query} {mapped result : Ty} {arg : Arg Expr}
    {body : Term} (gives : q.Gives ty elem mapped result)
    (within : arg.body.compile schema (arg.scope elem :: scopes) = .ok (body, mapped)) :
    (Expr.method source q.name [arg]).compile schema scopes = .ok (.query q t body, result) := by
  refine compile_method compiled sequence ?_
  rw [← onElements_eq] at within
  cases gives with
  | map elem =>
    simp only [Query.name, List.map_cons, List.map_nil, sequenceMethod, within, ok_bind, elem]
    rfl
  | sum numeric =>
    simp only [Query.name, List.map_cons, List.map_nil, sequenceMethod, within, ok_bind, numeric,
      if_true]
    rfl
  | _ =>
    simp only [Query.name, List.map_cons, List.map_nil, sequenceMethod, testing, within]
    rfl

theorem mapM_of_forall₂ {ε α β : Type} {f : α → Except ε β} {as : List α} {bs : List β}
    (each : List.Forall₂ (fun a b => f a = .ok b) as bs) : as.mapM f = .ok bs := by
  induction each with
  | nil => rfl
  | cons first _ ih =>
    rw [List.mapM_cons, first, ok_bind, ih]
    rfl

theorem FoundArg.ok {arg : Arg Expr} {found : Option Typed} (h : FoundArg schema scopes arg found) :
    (if (pendingArg schema arg).param.isSome then pure none
      else some <$> (pendingArg schema arg).compile scopes) = .ok found := by
  cases h with
  | plain compiled => exact congrArg (some <$> ·) compiled
  | lambda => rfl

section calls

variable {name : String} {index : Nat} {helper : Helper} {tail : Tail}

theorem compile_chosen {args : List (Arg Expr)} {typed : List (Option Typed)}
    {fixed : List (HelperArg Term)} (pos : Nat) (other : name ≠ "iif")
    (each : List.Forall₂ (FoundArg schema scopes) args typed)
    (chosen : choose? name (typed.map (·.map Prod.snd)) 0 schema.helpers =
      some (index, helper, tail))
    (passed : fixedArgs scopes helper.params ((args.map (pendingArg schema)).zip typed) =
      .ok fixed) :
    (Expr.call pos name args).compile schema scopes =
      .ok (.helper index (fixed ++ packed tail (typed.drop helper.params.length)),
        helper.returns) := by
  obtain ⟨⟨n, -, found⟩, called, -⟩ := choose?_found chosen
  have known : schema.helpers.any (·.name = name) :=
    List.any_eq_true.2 ⟨helper, List.mem_of_getElem? found, decide_eq_true called⟩
  have all : (args.map (pendingArg schema)).mapM (fun p =>
      if p.param.isSome then pure none else some <$> p.compile scopes) = .ok typed := by
    apply mapM_of_forall₂
    apply List.forall₂_map_left_iff.2
    exact each.imp fun _ _ found => found.ok
  rw [Expr.compile, if_neg other, pendingArgs_eq_map]
  simp only [helperCall, known, Bool.not_true, Bool.false_eq_true, if_false, all, ok_bind, chosen,
    passed]
  rfl

theorem compile_criterion {param : String} {criterion : Expr} {body : Term} (elem : ElemTy)
    (pos place : Nat) (other : name ≠ "iif")
    (chosen : choose? name [none] 0 schema.helpers = some (index, helper, .absent))
    (takes : helper.params = [.criterion elem])
    (within : criterion.compile schema (⟨param, elem.toTy, false⟩ :: scopes) = .ok (body, .bool)) :
    (Expr.call pos name [.lambda place param criterion]).compile schema scopes =
      .ok (.helper index [.lambda scopes.length body], helper.returns) := by
  let arg : Arg Expr := .lambda place param criterion
  have each : List.Forall₂ (FoundArg schema scopes) [arg] [none] := .cons .lambda .nil
  have tested : testing (pendingArg schema arg) elem.toTy scopes = .ok body := by
    rw [testing, onElements_eq]
    change (criterion.compile schema (⟨param, elem.toTy, false⟩ :: scopes) >>= _) = _
    rw [within]
    rfl
  have passed : fixedArgs scopes helper.params (([arg].map (pendingArg schema)).zip [none]) =
      .ok [.lambda scopes.length body] := by
    rw [takes, List.map_cons, List.zip_cons_cons, fixedArgs, tested]
    rfl
  exact compile_chosen pos other each chosen passed

end calls

end Typing

namespace Arg

def negated : Arg Expr → Arg Expr
  | plain e => plain (.unary e.pos .not e)
  | lambda pos param body => lambda pos param (.unary body.pos .not body)

/-- The lambda that gives its element back. -/
def self (pos pos' : Nat) (name : String) : Arg Expr := .lambda pos name (.name pos' name)

theorem compile_negated {schema : Schema} {scopes : Scopes} {elem : Ty} {p : Arg Expr} {body : Term}
    (compiled : p.body.compile schema (p.scope elem :: scopes) = .ok (body, .bool)) :
    p.negated.body.compile schema (p.negated.scope elem :: scopes) = .ok (.not body, .bool) := by
  cases p with
  | plain e => exact Typing.compile_not e.pos compiled
  | lambda pos param body => exact Typing.compile_not body.pos compiled

theorem compile_self (schema : Schema) (scopes : Scopes) (elem : Ty) (pos pos' : Nat)
    (name : String) : (self pos pos' name).body.compile schema
      ((self pos pos' name).scope elem :: scopes) = .ok (.slot scopes.length, elem) := by
  simp only [self, Arg.body, scope, Expr.compile, Typing.identifier, Typing.param?, if_true,
    Option.some_or]

end Arg

end LootFilter
