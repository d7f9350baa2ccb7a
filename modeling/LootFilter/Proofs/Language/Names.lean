import LootFilter.Proofs.Language.Agreement
import LootFilter.Proofs.Language.Faults
import LootFilter.Proofs.Language.Meaning

/-!
# Terms mean what the names in expressions mean

An accepted expression is compiled to a term that does on the stack what the expression means in the
environment of the names around it.
-/

namespace LootFilter

open Conduct
open Value (HasTy)

def Conduct.free (root : Item) : Conduct := ⟨root, True, fun _ => True⟩

theorem Conduct.free_permits {root : Item} {helpers : List Helper} {t : Term} :
    (free root).Permits helpers t := ⟨fun _ _ _ _ => trivial, fun _ _ _ => trivial⟩

namespace Meaning

variable {helpers : List Helper} {root : Item} {locals : Locals} {typed : Typed} {t i l r : Term}
  {ty : Ty} {name : String} {v w : Value}

theorem field_eq {k : RecordKind} {place : Nat} (h : v.HasTy root (.record k))
    (named : k.field? name = some (place, ty)) : Eval.field v place = field v name := by
  cases h
  obtain ⟨found, stands, -, same⟩ := RecordKind.field?_eq_some named
  simp only [Eval.field, Value.asRecord, Eval.pureOf, pure_bind, Record.field?, stands,
    Option.map_some, field, same]

theorem count_eq {elem : Ty} (sequence : ty.element? = some elem) (h : v.HasTy root ty)
    (named : name = "Count" ∨ name = "Length") : count v = member v name := by
  rcases named with rfl | rfl <;> cases h <;> first | rfl | cases sequence

theorem memberRule_means (rule : Typing.MemberRule t ty name typed)
    (values : (free root).Admits (t.eval helpers root locals) fun v => v.HasTy root ty) :
    typed.1.eval helpers root locals =
      t.eval helpers root locals >>= fun v => member v name := by
  cases rule with
  | field named =>
    apply values.bind_congr
    intro v h
    rw [field_eq h named]
    cases h
    rfl
  | textLength =>
    apply values.bind_congr
    intro v h
    cases h
    rfl
  | count sequence named => exact values.bind_congr fun v h => count_eq sequence h named
  | statCount table =>
    apply values.bind_congr
    intro v h
    rcases table with rfl | rfl <;> cases h <;> rfl

theorem indexRule_means {indexTy : Ty} (rule : Typing.IndexRule t i ty indexTy typed)
    (values : (free root).Admits (t.eval helpers root locals) fun v => v.HasTy root ty) :
    typed.1.eval helpers root locals =
      t.eval helpers root locals >>= fun v => index v (i.eval helpers root locals) := by
  cases rule with
  | element sequence =>
    apply values.bind_congr
    intro v h
    cases h <;> first | rfl | cases sequence
  | intStat =>
    apply values.bind_congr
    intro v h
    cases h
    rfl
  | realStat =>
    apply values.bind_congr
    intro v h
    cases h
    rfl

theorem unaryRule_means {op : UnaryOp} (rule : Typing.UnaryRule t op ty typed)
    (values : (free root).Admits (t.eval helpers root locals) fun v => v.HasTy root ty) :
    typed.1.eval helpers root locals = t.eval helpers root locals >>= unary op := by
  cases rule with
  | not => rfl
  | negate numeric =>
    apply values.bind_congr
    intro v h
    cases h <;> first | rfl | cases numeric

theorem isText_of_hasTy (h : v.HasTy root ty) : isText v = decide (ty = .text) := by
  cases h <;> rfl

theorem isReal_of_hasTy (h : v.HasTy root ty) : isReal v = decide (ty = .real) := by
  cases h <;> rfl

theorem kind_of_comparable {c : Comparison} {scalar : Scalar} {lt rt : Ty}
    (comparable : Typing.comparable? c lt rt = some scalar) (h : v.HasTy root lt)
    (h' : w.HasTy root rt) : scalar = kind v w := by
  unfold Typing.comparable? at comparable
  split at comparable
  case h_6 =>
    split at comparable <;> cases comparable
    cases h
    cases h'
    rfl
  all_goals cases comparable <;> cases h <;> cases h' <;> rfl

theorem isText_of_isNumeric (numeric : ty.isNumeric) (h : v.HasTy root ty) : isText v = false := by
  cases h <;> first | rfl | cases numeric

theorem binaryRule_means {op : BinaryOp} {lt rt : Ty} (rule : Typing.BinaryRule l r op lt rt typed)
    (values : (free root).Admits (l.eval helpers root locals) fun v => v.HasTy root lt)
    (others : (free root).Admits (r.eval helpers root locals) fun v => v.HasTy root rt) :
    typed.1.eval helpers root locals = l.eval helpers root locals >>= fun v =>
      r.eval helpers root locals >>= fun w => binary op v w := by
  cases rule with
  | compare comparable =>
    refine values.bind_congr fun v h => others.bind_congr fun w h' => ?_
    rw [kind_of_comparable comparable h h']
    rfl
  | join texts =>
    refine values.bind_congr fun v h => others.bind_congr fun w h' => ?_
    have joins : (isText v || isText w) = true := by
      rw [isText_of_hasTy h, isText_of_hasTy h']
      simpa using texts
    simp only [binary, joins]
    rfl
  | whole =>
    refine values.bind_congr fun v h => others.bind_congr fun w h' => ?_
    simp only [binary, isText_of_isNumeric rfl h, isText_of_isNumeric rfl h', isReal_of_hasTy h,
      isReal_of_hasTy h', Bool.or_self, Bool.and_false, Bool.false_eq_true, if_false]
    rfl
  | real numeric numeric' reals =>
    refine values.bind_congr fun v h => others.bind_congr fun w h' => ?_
    have real : (isReal v || isReal w) = true := by
      rw [isReal_of_hasTy h, isReal_of_hasTy h']
      simpa using reals
    simp only [binary, isText_of_isNumeric numeric h, isText_of_isNumeric numeric' h', real,
      Bool.or_self, Bool.and_false, Bool.false_eq_true, if_false]

/-! ## Widening -/

theorem widen_means {wide : Ty} (widens : typed.2.Widens wide)
    (values : (free root).Admits (typed.1.eval helpers root locals) fun v => v.HasTy root typed.2) :
    (Typing.widen typed wide).eval helpers root locals =
      widened (some wide) <$> typed.1.eval helpers root locals := by
  obtain ⟨t, ty⟩ := typed
  rw [map_eq_pure_bind]
  rcases widens with same | ⟨whole, rfl⟩
  · obtain rfl : ty = wide := same
    rw [Typing.widen_self]
    -- Widening a value to its own type does nothing to it.
    have kept : ∀ v, Value.HasTy root v ty →
        pure v = (pure (widened (some ty) v) : EvalM Value) := by
      intro v h
      cases h <;> rfl
    rw [← values.bind_congr kept, bind_pure]
  · obtain rfl : ty = .int := whole
    apply values.bind_congr
    intro v h
    cases h
    rfl

end Meaning

/-! ## Parts of expressions -/

/-- The term of the expression does what the expression means. -/
def Expr.Means (schema : Schema) (e : Expr) : Prop :=
  ∀ (root : Item) (bindings : Bindings) (typed : Typed),
    e.compile schema bindings.scopes = .ok typed → bindings.Typed root →
      typed.1.eval schema.helpers root bindings.locals = e.meaning schema root bindings

variable {schema : Schema} {root : Item} {bindings : Bindings} {typed : Typed} {e : Expr}

theorem Expr.ty?_of_compile {scopes : Scopes} (compiled : e.compile schema scopes = .ok typed) :
    e.ty? schema scopes = some typed.2 := by
  rw [ty?, compiled]

theorem Expr.meaningItems_eq_map (items : List Expr) :
    meaningItems schema root items = items.map (meaning schema root) := by
  induction items with
  | nil => rfl
  | cons e items ih => rw [meaningItems, ih, List.map_cons]

def Arg.operand (schema : Schema) (root : Item) (arg : Arg Expr) : Meaning.Operand :=
  ⟨arg, arg.body.meaning schema root⟩

theorem Expr.meaningArgs_eq_map (args : List (Arg Expr)) :
    meaningArgs schema root args = args.map (Arg.operand schema root) := by
  induction args with
  | nil => rfl
  | cons arg args ih => cases arg <;> rw [meaningArgs, ih, List.map_cons] <;> rfl

theorem Expr.admits_free (sound : schema.Sound)
    (compiled : e.compile schema bindings.scopes = .ok typed) (values : bindings.Typed root) :
    (free root).Admits (typed.1.eval schema.helpers root bindings.locals) fun v =>
      v.HasTy root typed.2 :=
  (e.isSound sound).gives values compiled free_permits

theorem Expr.Means.eval {t : Term} {ty : Ty} (h : e.Means schema) (values : bindings.Typed root)
    (compiled : e.compile schema bindings.scopes = .ok (t, ty)) :
    t.eval schema.helpers root bindings.locals = e.meaning schema root bindings :=
  h root bindings (t, ty) compiled values

theorem Meaning.value_operand (e : Expr) :
    ((Arg.plain e).operand schema root).value bindings = e.meaning schema root bindings := rfl

namespace Meaning

theorem name_means {name : String}
    (h : (Typing.param? name bindings.scopes).or
      ((Typing.elementField? name bindings.scopes).or (Typing.itemField? name)) = some typed)
    (values : bindings.Typed root) :
    typed.1.eval schema.helpers root bindings.locals = Meaning.name root bindings name := by
  obtain ⟨t, ty⟩ := typed
  rcases Option.or_eq_some_iff.1 h with parameter | ⟨noParameter, h⟩
  · obtain ⟨n, binding, ⟨⟩, stands, first⟩ := Bindings.param?_of_scopes parameter
    simp only [Term.eval, stands, Meaning.name, first]
  · -- No parameter has the name, so elements without a parameter come next, and the item last.
    rw [Meaning.name, Bindings.param?_eq_none noParameter]
    rcases Option.or_eq_some_iff.1 h with element | ⟨noElement, item⟩
    · obtain ⟨n, binding, k, place, rfl, stands, record, named, first⟩ :=
        Bindings.element?_of_scopes values element
      simp only [Term.eval, stands, first, pure_bind]
      exact field_eq record named
    · obtain ⟨⟨place, ty⟩, named, ⟨⟩⟩ := Option.map_eq_some_iff.1 item
      rw [Bindings.element?_eq_none values noElement]
      exact field_eq (.record (r := .item root) .self) named

theorem any_scopes (space : String) :
    bindings.scopes.any (·.name = space) = (bindings.param? space).isSome := by
  rw [Bindings.param?, List.isSome_find?, Bindings.scopes, List.any_map]
  rfl

theorem constant?_means (root : Item) {space name : String} {pos : Nat}
    (h : Typing.constant? schema bindings.scopes space name pos = .ok (some typed)) :
    ∃ v, constant? schema bindings space name = some v ∧
      typed.1.eval schema.helpers root bindings.locals = pure v := by
  unfold Typing.constant? at h
  rw [any_scopes] at h
  unfold constant?
  split at h
  · cases h
  · rename_i free
    rw [if_neg free]
    split at h
    · rename_i comparison
      rw [if_pos comparison]
      split at h
      · cases h
        exact ⟨_, rfl, rfl⟩
      · cases h
        exact ⟨_, rfl, rfl⟩
      · cases h
    · rename_i other
      rw [if_neg other]
      split at h
      · cases h
      · rename_i members found
        split at h
        · rename_i contains
          cases h
          exact ⟨.text name, by rw [found, Option.bind_some, if_pos contains], rfl⟩
        · cases h

theorem constant?_eq_none {space name : String} {pos : Nat}
    (h : Typing.constant? schema bindings.scopes space name pos = .ok none) :
    constant? schema bindings space name = none := by
  unfold Typing.constant? at h
  rw [any_scopes] at h
  unfold constant?
  split at h
  · rename_i hidden
    rw [if_pos hidden]
  · rename_i free
    rw [if_neg free]
    split at h
    · split at h <;> cases h
    · rename_i other
      rw [if_neg other]
      split at h
      · rename_i missing
        rw [missing, Option.bind_none]
      · split at h <;> cases h

theorem choiceRule_means {condition yes no : Expr} (sound : schema.Sound)
    (rule : Typing.ChoiceRule schema bindings.scopes condition yes no typed)
    (values : bindings.Typed root) (ih : ∀ part ∈ [condition, yes, no], part.Means schema) :
    typed.1.eval schema.helpers root bindings.locals = choice schema bindings
      ((Arg.plain condition).operand schema root) ((Arg.plain yes).operand schema root)
      ((Arg.plain no).operand schema root) := by
  simp only [List.forall_mem_cons] at ih
  obtain ⟨condition_means, yes_means, no_means, -⟩ := ih
  cases rule with
  | choice compiled first second joined =>
    obtain ⟨widens, widens'⟩ := Ty.widens_of_join? joined
    simp only [choice, Operand.value, Arg.operand, Arg.ty?, Expr.ty?_of_compile first,
      Expr.ty?_of_compile second, Option.bind_eq_bind, Option.bind_some, joined, Arg.body]
    -- What the branches mean is widened to their common type, as their terms are.
    rw [← condition_means.eval values compiled, ← yes_means.eval values first,
      ← no_means.eval values second,
      ← widen_means widens (Expr.admits_free sound first values),
      ← widen_means widens' (Expr.admits_free sound second values)]
    rfl

theorem evalLogical_means {items : List Expr} {ts : List Term} (op : LogicalOp)
    (each : List.Forall₂ (fun e t => e.compile schema bindings.scopes = .ok (t, .bool)) items ts)
    (values : bindings.Typed root) (ih : ∀ e ∈ items, e.Means schema) :
    Term.evalLogical schema.helpers root op ts bindings.locals =
      logical op (items.map fun e => e.meaning schema root bindings) := by
  induction each with
  | nil => rfl
  | cons compiled _ rest =>
    rw [Term.evalLogical, List.map_cons, logical, (ih _ (.head _)).eval values compiled,
      rest fun e mem => ih e (.tail _ mem)]

theorem evalAll_means {items : List Expr} {elements : List Typed} {common : Ty}
    (sound : schema.Sound)
    (each : List.Forall₂ (fun e t => e.compile schema bindings.scopes = .ok t) items elements)
    (values : bindings.Typed root) (ih : ∀ e ∈ items, e.Means schema)
    (wide : ∀ ty ∈ elements.map Prod.snd, ty.Widens common) :
    Term.evalAll schema.helpers root (elements.map (Typing.widen · common)) bindings.locals = (do
      let vs ← items.mapM fun e => e.meaning schema root bindings
      return vs.map (widened (some common))) := by
  induction each with
  | nil => rfl
  | cons compiled _ rest =>
    obtain ⟨first, others⟩ := List.forall_mem_cons.1 wide
    rw [List.map_cons, Term.evalAll, widen_means first (Expr.admits_free sound compiled values),
      (ih _ (.head _)).eval values compiled,
      rest (fun e mem => ih e (.tail _ mem)) others]
    simp only [List.mapM_cons, map_eq_pure_bind, bind_assoc, pure_bind, List.map_cons]

theorem types_of_compile {items : List Expr} {elements : List Typed}
    (each : List.Forall₂ (fun e t => e.compile schema bindings.scopes = .ok t) items elements) :
    items.mapM (Expr.ty? schema bindings.scopes) = some (elements.map Prod.snd) := by
  induction each with
  | nil => rfl
  | cons compiled _ rest =>
    rw [List.mapM_cons, Expr.ty?_of_compile compiled, rest]
    rfl

/-! ## Methods -/

theorem method_of_sequence {v : Value} {ty elem : Ty} {name : String} {args : List Operand}
    (sequence : ty.element? = some elem) (h : v.HasTy root ty) :
    method schema bindings (some ty) v name args =
      sequenceMethod schema bindings v elem name args := by
  cases h with
  | list => simp only [method, Option.bind_some, sequence]
  | mods => simp only [method, Option.bind_some, sequence]
  | _ => cases sequence

theorem sequenceMethod_of_query {q : Query} {ty elem mapped result : Ty} {v : Value}
    {lambda : Operand} (gives : q.Gives ty elem mapped result)
    (body : lambda.arg.body.ty? schema (lambda.arg.scope elem :: bindings.scopes) = some mapped) :
    sequenceMethod schema bindings v elem q.name [lambda] =
      Eval.query q (lambda.lambda bindings elem) v := by
  cases gives <;> simp [sequenceMethod, Query.name, query?, body]

theorem methodRule_means {t : Term} {ty : Ty} {name : String} {args : List (Arg Expr)}
    (rule : Typing.MethodRule schema bindings.scopes t ty name args typed)
    (target : (free root).Admits (t.eval schema.helpers root bindings.locals) fun v =>
      v.HasTy root ty)
    (values : bindings.Typed root) (ih : ∀ arg ∈ args, arg.body.Means schema) :
    typed.1.eval schema.helpers root bindings.locals =
      t.eval schema.helpers root bindings.locals >>= fun v =>
        method schema bindings (some ty) v name (args.map (Arg.operand schema root)) := by
  cases rule with
  | textTest found wanted =>
    have second := (ih _ (.head _)).eval values wanted
    apply target.bind_congr
    intro v h
    cases h
    simp only [method, textMethod, List.map_cons, List.map_nil, found, value_operand, second,
      Arg.body, Term.eval, Literal.toValue, pure_bind, Eval.asMode, Eval.pureOf]
  | textTestMode found wanted mode =>
    have second := (ih _ (.head _)).eval values wanted
    have third := (ih _ (.tail _ (.head _))).eval values mode
    apply target.bind_congr
    intro v h
    cases h
    simp only [method, textMethod, List.map_cons, List.map_nil, found, value_operand, second,
      third, Arg.body]
  | textMap found =>
    apply target.bind_congr
    intro v h
    cases h
    cases test : Typing.textTest? name <;>
      simp only [method, textMethod, List.map_nil, found, test]
  | hasStat table key =>
    have second := (ih _ (.head _)).eval values key
    apply target.bind_congr
    intro v h
    rcases table with rfl | rfl <;> cases h <;>
      simp only [method, List.map_cons, List.map_nil, value_operand, second, Arg.body]
  | count sequence =>
    apply target.bind_congr
    intro v h
    rw [method_of_sequence sequence h]
    rfl
  | isNonempty sequence =>
    apply target.bind_congr
    intro v h
    rw [method_of_sequence sequence h]
    rfl
  | first sequence =>
    apply target.bind_congr
    intro v h
    rw [method_of_sequence sequence h]
    rfl
  | sum sequence =>
    apply target.bind_congr
    intro v h
    rw [method_of_sequence sequence h]
    rfl
  | modStats =>
    apply target.bind_congr
    intro v h
    rw [method_of_sequence rfl h]
    rfl
  | contains sequence wanted =>
    have second := (ih _ (.head _)).eval values wanted
    apply target.bind_congr
    intro v h
    rw [method_of_sequence sequence h]
    simp only [sequenceMethod, List.map_cons, List.map_nil, value_operand, second, Arg.body]
  | @query _ elem mapped _ q arg body sequence gives compiled =>
    apply target.bind_congr
    intro v h
    rw [method_of_sequence sequence h, List.map_cons, List.map_nil,
      sequenceMethod_of_query gives (Expr.ty?_of_compile compiled)]
    -- The lambda matters only at elements, and there its binding has a value of its type.
    refine Eval.query_congr q sequence h fun v element => ?_
    have within := values.cons (arg.scope elem) (by cases arg <;> exact element)
    have same := (ih _ (.head _)).eval within compiled
    rw [Bindings.locals_cons] at same
    exact same

/-! ## Arguments of helpers -/

section arguments

variable {β : Type} {f g : List Argument → EvalM β}

theorem argRule_means {ty : Ty} {tys : List Ty} {arg : Arg Expr} {passed : HelperArg Term}
    {rest : List (HelperArg Term)} {others : EvalM (List Argument)}
    (rule : Typing.ArgRule schema bindings.scopes ty arg passed) (values : bindings.Typed root)
    (ih : arg.body.Means schema)
    (same : ∀ args args', Argument.AgreeAll root (ty :: tys) args args' → f args = g args')
    (further : ∀ {f g : List Argument → EvalM β},
      (∀ args args', Argument.AgreeAll root tys args args' → f args = g args') →
      Term.evalArgs schema.helpers root rest bindings.locals >>= f = others >>= g) :
    Term.evalArgs schema.helpers root (passed :: rest) bindings.locals >>= f = (do
      let first ← argument bindings ty (arg.operand schema root)
      return first :: (← others)) >>= g := by
  cases rule with
  | value compiled =>
    have first := ih.eval values compiled
    simp only [Term.evalArgs, argument, Arg.operand, Arg.body, Operand.value, bind_assoc, pure_bind,
      map_eq_pure_bind] at first ⊢
    rw [first]
    exact congrArg _ (funext fun v => further fun args args' agree =>
      same _ _ (.cons .value agree))
  | @lambda elem _ param _ body compiled =>
    simp only [Term.evalArgs, argument, Arg.operand, Arg.body, bind_assoc, pure_bind,
      Bindings.take_locals]
    -- A lambda is evaluated only when the helper calls it, so the other arguments come first.
    refine further fun args args' agree => same _ _ (.cons (.lambda fun v element => ?_) agree)
    have within := values.cons ⟨param, elem.toTy, false⟩ element
    refine Eval.test_congr ?_
    rw [← Bindings.locals_cons ⟨param, elem.toTy, false⟩ v]
    exact ih.eval within compiled

theorem evalAll_args {ty : Ty} {args : List (Arg Expr)} {ts : List Term}
    (each : List.Forall₂ (fun arg t => Typing.ArgRule schema bindings.scopes ty arg (.value t))
      args ts)
    (values : bindings.Typed root) (ih : ∀ arg ∈ args, arg.body.Means schema) :
    Term.evalAll schema.helpers root ts bindings.locals =
      (args.map (Arg.operand schema root)).mapM (Operand.value bindings) := by
  induction each with
  | nil => rfl
  | cons rule _ rest =>
    cases rule with
    | value compiled =>
      rw [Term.evalAll, List.map_cons, List.mapM_cons, (ih _ (.head _)).eval values compiled,
        rest fun arg mem => ih arg (.tail _ mem), value_operand]
      rfl

theorem argsRule_means {variadic : Option ElemTy} {tail : Typing.Tail}
    {params : List Ty} {args : List (Arg Expr)} {passed : List (HelperArg Term)}
    (rule : Typing.ArgsRule schema bindings.scopes variadic tail params args passed)
    (values : bindings.Typed root) (ih : ∀ arg ∈ args, arg.body.Means schema)
    (same : ∀ args args', Argument.AgreeAll root (params ++ (variadic.map Ty.list).toList)
      args args' → f args = g args') :
    Term.evalArgs schema.helpers root passed bindings.locals >>= f =
      arguments bindings tail params (args.map (Arg.operand schema root)) >>= g := by
  induction rule generalizing f g with
  | absent => exact same [] [] .nil
  | asList rule =>
    cases rule with
    | value compiled =>
      have first := (ih _ (.head _)).eval values compiled
      simp only [Term.evalArgs, arguments, List.map_cons, List.map_nil, List.mapM_cons,
        List.mapM_nil, value_operand, first, bind_assoc, pure_bind, Arg.body]
      exact congrArg _ (funext fun v => same _ _ (.cons .value .nil))
  | asElements each =>
    simp only [Term.evalArgs, Term.eval, arguments, bind_assoc, pure_bind,
      evalAll_args each values ih]
    exact congrArg _ (funext fun vs => same _ _ (.cons .value .nil))
  | fixed rule _ others =>
    exact argRule_means rule values (ih _ (.head _)) same fun agree =>
      others (fun arg mem => ih arg (.tail _ mem)) agree

end arguments

end Meaning

/-! ## Expressions -/

theorem Arg.operand_ty? (args : List (Arg Expr)) (scopes : Scopes) :
    (args.map (operand schema root)).map (fun operand => operand.arg.ty? schema scopes) =
      args.map (ty? schema scopes) := List.map_map ..

/-- The term of an accepted expression does what the expression means. -/
theorem Expr.means (sound : schema.Sound) (respects : ∀ helper ∈ schema.helpers, helper.Respects)
    (e : Expr) : e.Means schema := by
  induction e using Expr.induction with
  | step e ih =>
    -- For all bindings, as there is a binding more in the body of a lambda.
    intro root bindings typed compiled values
    have free {e : Expr} {t : Term} {ty : Ty}
        (compiled : e.compile schema bindings.scopes = .ok (t, ty)) :=
      Expr.admits_free sound compiled values
    cases Typing.compile_rule compiled with
    | bool => rfl
    | int => rfl
    | real => rfl
    | text => rfl
    | name resolved => exact Meaning.name_means resolved values
    | constant known =>
      obtain ⟨v, found, same⟩ := Meaning.constant?_means root known
      simp only [same, meaning, name?, Option.bind_some, found]
    | @member target name _ _ _ other known rule =>
      have noConstant : (target.name?.bind fun space =>
          Meaning.constant? schema bindings space name) = none :=
        Option.bind_eq_none_iff.2 fun space named => Meaning.constant?_eq_none (other space named)
      rw [Meaning.memberRule_means rule (free known), (ih _ (.head _)).eval values known, meaning,
        noConstant]
    | @index _ _ t i _ target place rule =>
      rw [Meaning.indexRule_means rule (free target), (ih _ (.head _)).eval values target,
        (ih _ (.tail _ (.head _))).eval values place, meaning]
    | unary operand rule =>
      rw [Meaning.unaryRule_means rule (free operand), (ih _ (.head _)).eval values operand,
        meaning]
    | binary left right rule =>
      rw [Meaning.binaryRule_means rule (free left) (free right),
        (ih _ (.head _)).eval values left, (ih _ (.tail _ (.head _))).eval values right, meaning]
    | @logical op first rest ts each =>
      rw [Term.eval, Typing.evalLogical_flatMap, Meaning.evalLogical_means op each values ih,
        meaning, meaningItems_eq_map, List.map_cons, List.map_cons, List.map_map]
      rfl
    | choice rule => exact Meaning.choiceRule_means sound rule values ih
    | iif rule => exact Meaning.choiceRule_means sound rule values ih
    | @call _ index name args helper tail passed other chosen rule =>
      have bodies := fun arg mem => ih (Arg.body arg) (List.mem_map_of_mem mem)
      obtain ⟨⟨n, rfl, found⟩, -, -⟩ := Typing.choose?_found chosen
      have mem := List.mem_of_getElem? found
      rw [meaning, if_neg other, meaningArgs_eq_map, Meaning.call, Arg.operand_ty?, chosen]
      refine Meaning.argsRule_means rule values bodies fun args args' agree => ?_
      rw [Nat.zero_add, Eval.callHelper, found]
      exact respects _ mem root args args' agree
    | array each joined elem =>
      have wide := Ty.widens_of_common? joined
      rw [Term.eval, Meaning.evalAll_means sound each values ih wide, meaning,
        meaningItems_eq_map, Meaning.types_of_compile each, Option.bind_some, joined, bind_assoc]
      simp only [List.mapM_map, pure_bind]
      rfl
    | method target rule =>
      have bodies := fun arg mem => ih (Arg.body arg) (.tail _ (List.mem_map_of_mem mem))
      rw [Meaning.methodRule_means rule (free target) values bodies,
        (ih _ (.head _)).eval values target, meaning, meaningArgs_eq_map,
        Expr.ty?_of_compile target]

theorem Expr.meaning_bound (sound : schema.Sound)
    (respects : ∀ helper ∈ schema.helpers, helper.Respects)
    (compiled : e.compile schema bindings.scopes = .ok typed) (values : bindings.Typed root)
    (s : Session) (n : Nat) :
    ((e.meaning schema root bindings).run.run s).1 ≠ .error (.typeMismatch (.unboundLocal n)) := by
  intro unbound
  have gives := (e.isSound sound).gives (C := typed.1.conduct schema.helpers root) values compiled
  have answers := (gives (permits_self root)).answers s
  change Conduct.Answers _ ((typed.1.eval schema.helpers root bindings.locals).run.run s).1 _
    at answers
  rw [Expr.means sound respects e root bindings typed compiled values, unbound] at answers
  -- No node raises a fault about a value of the wrong kind, to which a missing one belongs.
  obtain ⟨node, -, raises⟩ := answers
  exact raises

/-- On the stack with the values of the parameters around it, the term of an accepted expression
does what the expression means where every name stands for itself, and leaves the stack as it was.
No parameter is missing, and every node of the term leaves any stack as it was. -/
theorem Expr.run_means {t : Term} {ty : Ty} {it : Item}
    (compiled : e.compile .standard bindings.scopes = .ok (t, ty)) (values : bindings.Typed it)
    (s : Session) :
    (Machine.outcome (t.run Helper.standard it) bindings.locals s =
      ((((e.meaning .standard it bindings).run.run s).1, bindings.locals),
        ((e.meaning .standard it bindings).run.run s).2)) ∧
      (∀ n, ((e.meaning .standard it bindings).run.run s).1 ≠
        .error (.typeMismatch (.unboundLocal n))) ∧
      ∀ node : Term, node.IsIn t → ∀ locals s,
        (Machine.outcome (node.run Helper.standard it) locals s).1.2 = locals := by
  have means := Expr.means Schema.standard_sound Helper.standard_respects e it bindings _ compiled
    values
  refine ⟨?_, ?_, ?_⟩
  · rw [← means]
    exact Term.run_actsAs Helper.standard it t bindings.locals s
  · exact Expr.meaning_bound Schema.standard_sound Helper.standard_respects compiled values s
  · intro node _ locals s
    rw [Term.run_actsAs Helper.standard it node locals s]

/-- Lambdas of all three kinds in each other: one of a query, one passed to a helper, and one
without a parameter of its own. -/
theorem Expr.run_means_nested : ∃ e t ty,
    Expr.ofText "Tags.Any(t => IsUnownedItem(x => x.Tags.Any(it == t)))" = .ok e ∧
      e.compile .standard [] = .ok (t, ty) ∧
      ∀ s, Machine.outcome (t.run Helper.standard default) #[] s =
        ((((e.meaning .standard default []).run.run s).1, #[]),
          ((e.meaning .standard default []).run.run s).2) := by
  have accepted : (do
      let e ← Expr.ofText "Tags.Any(t => IsUnownedItem(x => x.Tags.Any(it == t)))"
      e.compile .standard []).isOk := by decide +kernel
  obtain ⟨⟨t, ty⟩, h⟩ := Typing.ok_of_isOk accepted
  obtain ⟨e, parsed, compiled⟩ := Typing.bind_eq_ok.1 h
  have values : Bindings.Typed default [] := nofun
  exact ⟨e, t, ty, parsed, compiled, fun s => (run_means compiled values s).1⟩

end LootFilter
