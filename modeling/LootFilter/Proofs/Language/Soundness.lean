import LootFilter.Proofs.Language.Bindings
import LootFilter.Proofs.Language.Compile
import LootFilter.Proofs.Language.Helper
import LootFilter.Proofs.Language.Stack

/-!
# Type soundness

An accepted expression evaluates to a value of its type, or to a fault that a node of its term can
raise.
-/

namespace LootFilter

/-! ## Nodes -/

def HelperArg.body : HelperArg Term → Term
  | value t => t
  | lambda _ body => body

namespace Term

def parts : Term → List Term
  | literal _ | root | slot _ => []
  | field t _ | toReal t | not t | negate _ t | textLength t | textMap _ t | count t | isNonempty t
  | first t | sum _ t | modStats t | statCount t => [t]
  | logical _ operands => operands
  | compare _ _ left right | compute _ _ left right | join left right => [left, right]
  | choice condition yes no => [condition, yes, no]
  | array items => items
  | index t i => [t, i]
  | textTest _ target wanted mode => [target, wanted, mode]
  | contains t wanted => [t, wanted]
  | query _ t body => [t, body]
  | stat table key | hasStat table key => [table, key]
  | helper _ args => args.map HelperArg.body

inductive IsIn (node : Term) : Term → Prop
  | self : IsIn node node
  | part {t part : Term} : part ∈ t.parts → IsIn node part → IsIn node t

def IsWholeDivision : Term → Prop
  | compute .div false _ _ | compute .rem false _ _ => True
  | _ => False

def IsIndex : Term → Prop
  | index .. => True
  | _ => False

def IsFirst : Term → Prop
  | first _ | query .first _ _ => True
  | _ => False

def Calls (helpers : List Helper) (P : Helper → Prop) : Term → Prop
  | helper place _ => ∃ helper, helpers[place]? = some helper ∧ P helper
  | _ => False

/-- Whether the term can end with a fault that no part of it ends with. -/
def CanRaise (helpers : List Helper) (t : Term) : Fault → Prop
  | .divideByZero => t.IsWholeDivision
  | .indexOutOfRange .. => t.IsIndex
  | .emptySequence => t.IsFirst
  | .lengthMismatch .. => t.Calls helpers (·.name = "ModWeightedStatSum")
  | .typeMismatch _ => False

end Term

/-- Whether a conduct allows what the nodes of a term do. -/
structure Conduct.Permits (C : Conduct) (helpers : List Helper) (t : Term) : Prop where
  faults : ∀ node : Term, node.IsIn t → ∀ fault, node.CanRaise helpers fault → C.faults fault
  lists : ∀ node : Term, node.IsIn t → node.Calls helpers Helper.IsAboutTagList → C.lists

def Term.conduct (helpers : List Helper) (root : Item) (t : Term) : Conduct where
  root
  lists := ∃ node : Term, node.IsIn t ∧ node.Calls helpers Helper.IsAboutTagList
  faults fault := ∃ node : Term, node.IsIn t ∧ node.CanRaise helpers fault

namespace Conduct

variable {C : Conduct} {helpers : List Helper} {t : Term}

theorem permits_self (root : Item) : (t.conduct helpers root).Permits helpers t where
  faults node inside _ raises := ⟨node, inside, raises⟩
  lists node inside calls := ⟨node, inside, calls⟩

theorem Permits.part {part : Term} (h : C.Permits helpers t) (mem : part ∈ t.parts) :
    C.Permits helpers part where
  faults node inside := h.faults node (.part mem inside)
  lists node inside := h.lists node (.part mem inside)

theorem Permits.helper {index : Nat} {args : List (HelperArg Term)} {helper : Helper}
    (h : C.Permits helpers (.helper index args)) (found : helpers[index]? = some helper) :
    helper.Permitted C where
  lists aboutList := h.lists _ .self ⟨helper, found, aboutList⟩
  lengths named _ _ _ := h.faults _ .self _ ⟨helper, found, named⟩

theorem Permits.of_flatten {op : LogicalOp}
    (h : ∀ part ∈ Typing.flatten op t, C.Permits helpers part) : C.Permits helpers t := by
  unfold Typing.flatten at h
  split at h
  · split at h
    · constructor
      · intro node inside fault raises
        cases inside with
        | self => cases fault <;> cases raises
        | part mem inside => exact (h _ mem).faults node inside fault raises
      · intro node inside calls
        cases inside with
        | self => cases calls
        | part mem inside => exact (h _ mem).lists node inside calls
    · exact h _ (.head _)
  · exact h _ (.head _)

end Conduct

open Conduct
open Value (HasTy)

variable {C : Conduct} {helpers : List Helper} {locals : Locals} {typed : Typed} {t i l r : Term}
  {ty : Ty} {name : String}

namespace Typing

/-! ## Evaluating by the rules -/

/-- Under the conduct the term gives a value of its type, if its nodes are permitted. -/
def Gives (C : Conduct) (helpers : List Helper) (locals : Locals) (typed : Typed) : Prop :=
  C.Permits helpers typed.1 →
    C.Admits (typed.1.eval helpers C.root locals) fun v => v.HasTy C.root typed.2

theorem Gives.part {whole : Term} (h : Gives C helpers locals (t, ty))
    (permits : C.Permits helpers whole) (mem : t ∈ whole.parts) :
    C.Admits (t.eval helpers C.root locals) fun v => v.HasTy C.root ty :=
  h (permits.part mem)

theorem MemberRule.gives (rule : MemberRule t ty name typed) (h : Gives C helpers locals (t, ty)) :
    Gives C helpers locals typed := by
  intro permits
  cases rule with
  | field found =>
    have target := h.part permits (.head _)
    exact target.bind fun v value => admits_field value found
  | textLength =>
    apply (h.part permits (.head _)).bind
    intro v value
    have text := (answers_asText value).admits
    exact text.bind fun s _ => .pure (.int _)
  | count sequence =>
    apply (h.part permits (.head _)).bind
    intro v value
    have elements := (answers_elements sequence value).admits
    exact elements.bind fun vs _ => .pure (.int _)
  | statCount table =>
    have target := h.part permits (.head _)
    exact target.bind fun v value => (answers_statCount table value).admits

theorem IndexRule.gives {indexTy : Ty} (rule : IndexRule t i ty indexTy typed)
    (h : Gives C helpers locals (t, ty)) (index : Gives C helpers locals (i, indexTy)) :
    Gives C helpers locals typed := by
  intro permits
  cases rule with
  | element sequence =>
    have outOfRange (length : Nat) (n : Int64) : C.faults (.indexOutOfRange n length) :=
      permits.faults _ .self _ trivial
    apply (h.part permits (.head _)).bind
    intro v value
    apply (answers_elements sequence value).admits.bind
    intro vs elements
    apply (index.part permits (.tail _ (.head _))).bind
    intro w whole
    apply (answers_asInt whole).admits.bind
    intro n _
    exact (answers_nth elements n fun length => outOfRange length n).admits
  | intStat =>
    apply (h.part permits (.head _)).bind
    intro v table
    apply (index.part permits (.tail _ (.head _))).bind
    intro w key
    have text := (answers_asText key).admits
    exact text.bind fun s _ => (answers_stat_int table s).admits
  | realStat =>
    apply (h.part permits (.head _)).bind
    intro v table
    apply (index.part permits (.tail _ (.head _))).bind
    intro w key
    have text := (answers_asText key).admits
    exact text.bind fun s _ => (answers_stat_real table s).admits

theorem UnaryRule.gives {op : UnaryOp} (rule : UnaryRule t op ty typed)
    (h : Gives C helpers locals (t, ty)) : Gives C helpers locals typed := by
  intro permits
  cases rule with
  | not =>
    apply (h.part permits (.head _)).bind
    intro v value
    have bool := (answers_asBool value).admits
    exact bool.bind fun b _ => .pure (.bool _)
  | negate numeric =>
    have operand := h.part permits (.head _)
    exact operand.bind fun v value => (answers_negate numeric value).admits

theorem BinaryRule.gives {op : BinaryOp} {lt rt : Ty} (rule : BinaryRule l r op lt rt typed)
    (left : Gives C helpers locals (l, lt)) (right : Gives C helpers locals (r, rt)) :
    Gives C helpers locals typed := by
  intro permits
  cases rule with
  | compare comparable =>
    apply (left.part permits (.head _)).bind
    intro v first
    apply (right.part permits (.tail _ (.head _))).bind
    intro w second
    exact (answers_compare comparable first second).admits
  | join _ printable printable' =>
    apply (left.part permits (.head _)).bind
    intro v first
    apply (right.part permits (.tail _ (.head _))).bind
    intro w second
    have front := (answers_print printable first).admits
    have back := (answers_print printable' second).admits
    exact front.bind fun s _ => back.bind fun s' _ => .pure (.text _)
  | @whole a =>
    have byZero : a = .div ∨ a = .rem → C.faults .divideByZero := by
      rintro (rfl | rfl)
      · exact permits.faults _ .self .divideByZero trivial
      · exact permits.faults _ .self .divideByZero trivial
    apply (left.part permits (.head _)).bind
    intro v first
    apply (right.part permits (.tail _ (.head _))).bind
    intro w second
    exact (answers_compute_int a first second byZero).admits
  | real numeric numeric' =>
    apply (left.part permits (.head _)).bind
    intro v first
    apply (right.part permits (.tail _ (.head _))).bind
    intro w second
    exact (answers_compute_real _ numeric numeric' first second).admits

/-! ## Widening -/

end Typing

def Ty.Widens (ty wide : Ty) : Prop := ty = wide ∨ ty = .int ∧ wide = .real

namespace Ty

variable {a b c ty : Ty}

theorem Widens.trans (h : a.Widens b) (h' : b.Widens c) : a.Widens c := by
  rcases h with rfl | ⟨rfl, rfl⟩
  · exact h'
  · rcases h' with rfl | ⟨real, -⟩
    · exact .inr ⟨rfl, rfl⟩
    · cases real

theorem widens_of_isNumeric (h : ty.isNumeric) : ty.Widens .real := by
  unfold isNumeric at h
  split at h
  · exact .inr ⟨rfl, rfl⟩
  · exact .inl rfl
  · cases h

theorem widens_of_join? (h : a.join? b = some c) : a.Widens c ∧ b.Widens c := by
  unfold join? at h
  split at h
  · rename_i same
    cases h
    exact ⟨.inl rfl, .inl same.symm⟩
  · split at h
    · rename_i numeric
      cases h
      rw [Bool.and_eq_true] at numeric
      exact ⟨widens_of_isNumeric numeric.1, widens_of_isNumeric numeric.2⟩
    · cases h

theorem widens_of_foldlM {tys : List Ty} (h : tys.foldlM join? a = some c) :
    a.Widens c ∧ ∀ ty ∈ tys, ty.Widens c := by
  induction tys generalizing a with
  | nil =>
    cases h
    exact ⟨.inl rfl, nofun⟩
  | cons ty tys ih =>
    rw [List.foldlM_cons] at h
    obtain ⟨b, joined, h⟩ := Option.bind_eq_some_iff.1 h
    obtain ⟨wide, others⟩ := ih h
    obtain ⟨first, second⟩ := widens_of_join? joined
    exact ⟨first.trans wide, List.forall_mem_cons.2 ⟨second.trans wide, others⟩⟩

theorem widens_of_common? {tys : List Ty} (h : common? tys = some c) :
    ∀ ty ∈ tys, ty.Widens c := by
  cases tys with
  | nil => cases h
  | cons ty tys => exact List.forall_mem_cons.2 (widens_of_foldlM h)

end Ty

namespace Typing

theorem widen_self : widen (t, ty) ty = t := by
  unfold widen
  split
  · rename_i both
    simp only [Bool.and_eq_true, decide_eq_true_eq] at both
    cases both.1.symm.trans both.2
  · rfl

theorem widen_gives {wide : Ty} (h : Gives C helpers locals typed) (widens : typed.2.Widens wide) :
    Gives C helpers locals (widen typed wide, wide) := by
  obtain ⟨t, ty⟩ := typed
  rcases widens with same | ⟨whole, rfl⟩
  · obtain rfl : ty = wide := same
    rw [widen_self]
    exact h
  · obtain rfl : ty = .int := whole
    intro permits
    apply (h.part permits (.head _)).bind
    intro v value
    have real := (answers_asReal rfl value).admits
    exact real.bind fun x _ => .pure (.real x)

/-! ## Operands and elements -/

theorem evalLogical_append (op : LogicalOp) (root : Item) (ts us : List Term) :
    Term.evalLogical helpers root op (ts ++ us) locals = (do
      let b ← Term.evalLogical helpers root op ts locals
      if b = op.neutral then Term.evalLogical helpers root op us locals else return b) := by
  induction ts with
  | nil => simp [Term.evalLogical]
  | cons t ts ih =>
    simp only [List.cons_append, Term.evalLogical, bind_assoc, ih]
    congr 1
    funext v
    congr 1
    funext b
    split
    · rfl
    · rename_i other
      rw [pure_bind, if_neg other]

theorem evalLogical_flatten (op : LogicalOp) (root : Item) (t : Term) (ts : List Term) :
    Term.evalLogical helpers root op (flatten op t ++ ts) locals =
      Term.evalLogical helpers root op (t :: ts) locals := by
  unfold flatten
  split
  · split
    · rename_i inner operands same
      subst same
      rw [evalLogical_append]
      simp only [Term.evalLogical, Term.eval, bind_assoc, pure_bind]
      rfl
    · rfl
  · rfl

theorem evalLogical_flatMap (op : LogicalOp) (root : Item) (ts : List Term) :
    Term.evalLogical helpers root op (ts.flatMap (flatten op)) locals =
      Term.evalLogical helpers root op ts locals := by
  induction ts with
  | nil => rfl
  | cons t ts ih =>
    rw [List.flatMap_cons, evalLogical_flatten, Term.evalLogical, Term.evalLogical, ih]

theorem admits_evalLogical {op : LogicalOp} {ts : List Term}
    (h : ∀ t ∈ ts, C.Admits (t.eval helpers C.root locals) fun v => v.HasTy C.root .bool) :
    C.Admits (Term.evalLogical helpers C.root op ts locals) fun _ => True := by
  induction ts with
  | nil => exact .pure trivial
  | cons t ts ih =>
    apply (h t (.head _)).bind
    intro v value
    apply (answers_asBool value).admits.bind
    intro b _
    split
    · exact ih fun t mem => h t (.tail _ mem)
    · exact .pure trivial

theorem admits_evalAll {P : Value → Prop} {ts : List Term}
    (h : ∀ t ∈ ts, C.Admits (t.eval helpers C.root locals) P) :
    C.Admits (Term.evalAll helpers C.root ts locals) fun vs => ∀ v ∈ vs, P v := by
  induction ts with
  | nil => exact .pure nofun
  | cons t ts ih =>
    apply (h t (.head _)).bind
    intro v first
    refine (ih fun t mem => h t (.tail _ mem)).bind fun vs rest => .pure ?_
    exact List.forall_mem_cons.2 ⟨first, rest⟩

theorem admits_array {P : Value → Prop} {ts : List Term}
    (h : ∀ t ∈ ts, C.Admits (t.eval helpers C.root locals) P) :
    C.Admits ((Term.array ts).eval helpers C.root locals) fun v =>
      ∃ vs, v = .list vs ∧ ∀ v ∈ vs, P v :=
  (admits_evalAll h).bind fun vs each => .pure ⟨vs, rfl, each⟩

theorem admits_slot {n : Nat} {v : Value} {P : Value → Prop} (stands : locals[n]? = some v)
    (h : P v) : C.Admits ((Term.slot n).eval helpers C.root locals) P := by
  simp only [Term.eval, stands]
  exact .pure h

end Typing

/-! ## Expressions -/

/-- The term gives values of its type, whatever the values of the parameters around it. -/
def Typing.Sound (helpers : List Helper) (scopes : Scopes) (typed : Typed) : Prop :=
  ∀ (C : Conduct) (bindings : Bindings), bindings.scopes = scopes → bindings.Typed C.root →
    Gives C helpers bindings.locals typed

def Expr.IsSound (schema : Schema) (e : Expr) : Prop :=
  ∀ scopes typed, e.compile schema scopes = .ok typed → Typing.Sound schema.helpers scopes typed

/-- What evaluations rely on in the helpers of a schema. -/
structure Schema.Sound (schema : Schema) : Prop where
  helpers : ∀ helper ∈ schema.helpers, helper.Sound
  variadic : ∀ helper ∈ schema.helpers, ∀ elem, helper.variadic = some elem → elem.toTy.IsStrict

variable {schema : Schema} {bindings : Bindings}

theorem Expr.IsSound.gives {e : Expr} (h : e.IsSound schema) (values : bindings.Typed C.root)
    (compiled : e.compile schema bindings.scopes = .ok typed) :
    Typing.Gives C schema.helpers bindings.locals typed :=
  h _ _ compiled C bindings rfl values

namespace Typing

theorem constant?_gives {scopes : Scopes} {space : String} {pos : Nat}
    (h : constant? schema scopes space name pos = .ok (some typed)) :
    Gives C helpers locals typed := by
  intro _
  unfold constant? at h
  split at h
  · cases h
  · split at h
    · split at h
      · cases h
        exact .pure (.comparison _)
      · cases h
        exact .pure (.comparison _)
      · cases h
    · split at h
      · cases h
      · split at h
        · cases h
          exact .pure (.text _)
        · cases h

theorem ChoiceRule.gives {condition yes no : Expr}
    (rule : ChoiceRule schema bindings.scopes condition yes no typed)
    (values : bindings.Typed C.root) (ih : ∀ part ∈ [condition, yes, no], part.IsSound schema) :
    Gives C schema.helpers bindings.locals typed := by
  simp only [List.forall_mem_cons] at ih
  obtain ⟨soundCondition, soundYes, soundNo, -⟩ := ih
  cases rule with
  | choice compiled first second joined =>
    intro permits
    obtain ⟨widens, widens'⟩ := Ty.widens_of_join? joined
    apply ((soundCondition.gives values compiled).part permits (.head _)).bind
    intro v bool
    apply (answers_asBool bool).admits.bind
    intro b _
    cases b with
    | true =>
      exact (widen_gives (soundYes.gives values first) widens).part permits (.tail _ (.head _))
    | false =>
      exact (widen_gives (soundNo.gives values second) widens').part permits
        (.tail _ (.tail _ (.head _)))

theorem admits_textTest {test : TextTest} {target wanted mode : Term}
    (h : C.Admits (target.eval helpers C.root locals) fun v => v.HasTy C.root .text)
    (h' : C.Admits (wanted.eval helpers C.root locals) fun v => v.HasTy C.root .text)
    (h'' : C.Admits (mode.eval helpers C.root locals) fun v => v.HasTy C.root .comparison) :
    C.Admits ((Term.textTest test target wanted mode).eval helpers C.root locals) fun v =>
      v.HasTy C.root .bool := by
  refine h.bind fun v text => h'.bind fun w other => h''.bind fun m comparison => ?_
  apply (answers_asMode comparison).admits.bind
  intro mode _
  apply (answers_asText text).admits.bind
  intro s _
  exact (answers_asText other).admits.bind fun s' _ => .pure (.bool _)

theorem MethodRule.gives {args : List (Arg Expr)}
    (rule : MethodRule schema bindings.scopes t ty name args typed)
    (values : bindings.Typed C.root) (ih : ∀ arg ∈ args, arg.body.IsSound schema)
    (h : Gives C schema.helpers bindings.locals (t, ty)) :
    Gives C schema.helpers bindings.locals typed := by
  intro permits
  cases rule with
  | textTest _ wanted =>
    have second := (ih _ (.head _)).gives values wanted
    exact admits_textTest (h.part permits (.head _)) (second.part permits (.tail _ (.head _)))
      (.pure (.comparison _))
  | textTestMode _ wanted mode =>
    have second := (ih _ (.head _)).gives values wanted
    have third := (ih _ (.tail _ (.head _))).gives values mode
    exact admits_textTest (h.part permits (.head _)) (second.part permits (.tail _ (.head _)))
      (third.part permits (.tail _ (.tail _ (.head _))))
  | textMap =>
    apply (h.part permits (.head _)).bind
    intro v value
    have text := (answers_asText value).admits
    exact text.bind fun s _ => .pure (.text _)
  | hasStat table key =>
    have second := (ih _ (.head _)).gives values key
    apply (h.part permits (.head _)).bind
    intro v value
    apply (second.part permits (.tail _ (.head _))).bind
    intro w text
    exact (answers_asText text).admits.bind fun s _ => (answers_hasStat table value s).admits
  | count sequence =>
    apply (h.part permits (.head _)).bind
    intro v value
    have elements := (answers_elements sequence value).admits
    exact elements.bind fun vs _ => .pure (.int _)
  | isNonempty sequence =>
    apply (h.part permits (.head _)).bind
    intro v value
    have elements := (answers_elements sequence value).admits
    exact elements.bind fun vs _ => .pure (.bool _)
  | first sequence =>
    have missing : C.faults .emptySequence := permits.faults _ .self .emptySequence trivial
    apply (h.part permits (.head _)).bind
    intro v value
    apply (answers_elements sequence value).admits.bind
    intro vs elements
    exact (answers_head elements missing).admits
  | sum sequence numeric =>
    apply (h.part permits (.head _)).bind
    intro v value
    apply (answers_elements sequence value).admits.bind
    intro vs elements
    exact admits_sumOf numeric fun v mem => .pure (elements v mem)
  | contains sequence wanted =>
    have second := (ih _ (.head _)).gives values wanted
    apply (h.part permits (.head _)).bind
    intro v value
    apply (answers_elements sequence value).admits.bind
    intro vs _
    exact (second.part permits (.tail _ (.head _))).bind fun w _ => .pure (.bool _)
  | modStats =>
    apply (h.part permits (.head _)).bind
    intro v value
    apply (answers_asMods value).admits.bind
    intro mods within
    have asked : C.Admits (liftM (Session.sumMods mods)) fun _ => True :=
      .ask (.sum within) fun _ => trivial
    exact asked.bind fun sum _ => .pure (.intStats sum)
  | @query _ elem _ _ q arg _ sequence gives body =>
    have first : q = .first → C.faults .emptySequence := by
      rintro rfl
      exact permits.faults _ .self .emptySequence trivial
    apply (h.part permits (.head _)).bind
    intro v value
    refine admits_query sequence gives first value fun v element => ?_
    -- The element is the value of one lambda more, the innermost.
    have within := values.cons (arg.scope elem) (by cases arg <;> exact element)
    rw [← Bindings.locals_cons (arg.scope elem) v]
    exact ((ih _ (.head _)).gives within body).part permits (.tail _ (.head _))

/-! ## Arguments of helpers -/

theorem ArgRule.fits {arg : Arg Expr} (rule : ArgRule schema bindings.scopes ty arg (.value t))
    (values : bindings.Typed C.root) (ih : arg.body.IsSound schema)
    (permits : C.Permits schema.helpers t) :
    C.Admits (t.eval schema.helpers C.root bindings.locals) fun v => v.Fits C.root ty := by
  cases rule with
  | value compiled accepted =>
    exact (ih.gives values compiled permits).weaken fun v value => ⟨_, accepted, value⟩

theorem ArgRule.keeps {arg : Arg Expr} {height : Nat} {body : Term} {elem : ElemTy}
    (rule : ArgRule schema bindings.scopes (.criterion elem) arg (.lambda height body))
    (values : bindings.Typed C.root) (ih : arg.body.IsSound schema)
    (permits : C.Permits schema.helpers body) (v : Value) (element : v.HasTy C.root elem.toTy) :
    C.Admits (Eval.test (fun v => body.eval schema.helpers C.root
      ((bindings.locals.take height).push v)) v) fun _ => True := by
  cases rule with
  | @lambda _ _ param _ _ compiled =>
    have within := values.cons ⟨param, elem.toTy, false⟩ element
    -- The height of a lambda is the number of lambdas around it, so it takes the whole stack.
    rw [Bindings.take_locals]
    refine admits_test ?_
    rw [← Bindings.locals_cons ⟨param, elem.toTy, false⟩ v]
    exact ih.gives within compiled permits

theorem ArgRule.suits {arg : Arg Expr} {passed : HelperArg Term} {rest : List (HelperArg Term)}
    {P : List Argument → Prop} (rule : ArgRule schema bindings.scopes ty arg passed)
    (values : bindings.Typed C.root) (ih : arg.body.IsSound schema)
    (permits : C.Permits schema.helpers passed.body)
    (others : C.Admits (Term.evalArgs schema.helpers C.root rest bindings.locals) P) :
    C.Admits (Term.evalArgs schema.helpers C.root (passed :: rest) bindings.locals) fun args =>
      ∃ arg args', args = arg :: args' ∧ arg.Suits C ty ∧ P args' := by
  cases passed with
  | value t =>
    apply (rule.fits values ih permits).bind
    intro v fits
    exact others.bind fun args suit => .pure ⟨.value v, args, rfl, .value fits, suit⟩
  | lambda height body =>
    refine others.bind fun args suit => .pure ⟨_, args, rfl, ?_, suit⟩
    have criterion : ∃ elem, ty = .criterion elem := by
      cases rule
      exact ⟨_, rfl⟩
    obtain ⟨elem, rfl⟩ := criterion
    exact .lambda (rule.keeps values ih permits)

theorem elements_fit {args : List (Arg Expr)} {ts : List Term}
    (each : List.Forall₂ (fun arg t => ArgRule schema bindings.scopes ty arg (.value t)) args ts)
    (values : bindings.Typed C.root) (ih : ∀ arg ∈ args, arg.body.IsSound schema)
    (permits : ∀ t ∈ ts, C.Permits schema.helpers t) :
    ∀ t ∈ ts, C.Admits (t.eval schema.helpers C.root bindings.locals) fun v =>
      v.Fits C.root ty := by
  induction each with
  | nil => exact nofun
  | cons rule _ rest =>
    obtain ⟨first, others⟩ := List.forall_mem_cons.1 permits
    refine List.forall_mem_cons.2 ⟨rule.fits values (ih _ (.head _)) first, ?_⟩
    exact rest (fun arg mem => ih arg (.tail _ mem)) others

theorem ArgsRule.suits {variadic : Option ElemTy} {tail : Tail} {params : List Ty}
    {args : List (Arg Expr)} {passed : List (HelperArg Term)}
    (rule : ArgsRule schema bindings.scopes variadic tail params args passed)
    (strict : ∀ elem, variadic = some elem → elem.toTy.IsStrict)
    (values : bindings.Typed C.root) (ih : ∀ arg ∈ args, arg.body.IsSound schema)
    (permits : ∀ arg ∈ passed, C.Permits schema.helpers arg.body) :
    C.Admits (Term.evalArgs schema.helpers C.root passed bindings.locals) fun args =>
      List.Forall₂ (Argument.Suits C) args (params ++ (variadic.map Ty.list).toList) := by
  induction rule with
  | absent => exact .pure .nil
  | asList rule =>
    have rest : C.Admits (Term.evalArgs schema.helpers C.root [] bindings.locals) (· = []) :=
      .pure rfl
    refine (rule.suits values (ih _ (.head _)) (permits _ (.head _)) rest).weaken ?_
    rintro _ ⟨arg, _, rfl, suits, rfl⟩
    exact .cons suits .nil
  | @asElements elem _ ts each =>
    have parts : ∀ t ∈ ts, C.Permits schema.helpers t := fun t mem =>
      (permits _ (.head _)).part mem
    refine (admits_array (elements_fit each values ih parts)).bind ?_
    rintro _ ⟨vs, rfl, fit⟩
    -- No whole number stands for a double here: the type of further arguments is strict.
    have typed : (Value.list vs).HasTy C.root (.list elem) :=
      .list fun v mem => (fit v mem).hasTy (strict elem rfl)
    exact .pure (.cons (.value typed.fits) .nil)
  | fixed rule _ others =>
    obtain ⟨first, rest⟩ := List.forall_mem_cons.1 permits
    have further := others strict (fun arg mem => ih arg (.tail _ mem)) rest
    refine (rule.suits values (ih _ (.head _)) first further).weaken ?_
    rintro _ ⟨arg, args, rfl, suits, suit⟩
    exact .cons suits suit

theorem elements_give {items : List Expr} {elements : List Typed} {common : Ty}
    (each : List.Forall₂ (fun e t => e.compile schema bindings.scopes = .ok t) items elements)
    (values : bindings.Typed C.root) (ih : ∀ e ∈ items, e.IsSound schema)
    (wide : ∀ ty ∈ elements.map Prod.snd, ty.Widens common) :
    ∀ t ∈ elements.map (widen · common), Gives C schema.helpers bindings.locals (t, common) := by
  induction each with
  | nil => exact nofun
  | cons compiled _ rest =>
    obtain ⟨first, others⟩ := List.forall_mem_cons.1 wide
    refine List.forall_mem_cons.2 ⟨?_, rest (fun e mem => ih e (.tail _ mem)) others⟩
    exact widen_gives ((ih _ (.head _)).gives values compiled) first

theorem operands_give {items : List Expr} {ts : List Term}
    (each : List.Forall₂ (fun e t => e.compile schema bindings.scopes = .ok (t, .bool)) items ts)
    (values : bindings.Typed C.root) (ih : ∀ e ∈ items, e.IsSound schema) :
    ∀ t ∈ ts, Gives C schema.helpers bindings.locals (t, .bool) := by
  induction each with
  | nil => exact nofun
  | cons compiled _ rest =>
    refine List.forall_mem_cons.2 ⟨(ih _ (.head _)).gives values compiled, ?_⟩
    exact rest fun e mem => ih e (.tail _ mem)

theorem name_gives
    (h : (param? name bindings.scopes).or
      ((elementField? name bindings.scopes).or (itemField? name)) = some typed)
    (values : bindings.Typed C.root) : Gives C helpers bindings.locals typed := by
  obtain ⟨t, ty⟩ := typed
  intro _
  rcases Option.or_eq_some_iff.1 h with parameter | ⟨-, h⟩
  · obtain ⟨n, binding, ⟨⟩, stands, first⟩ := Bindings.param?_of_scopes parameter
    exact admits_slot stands (values _ (List.mem_of_find?_eq_some first))
  · rcases Option.or_eq_some_iff.1 h with element | ⟨-, item⟩
    · obtain ⟨n, binding, k, place, rfl, stands, record, named, -⟩ :=
        Bindings.element?_of_scopes values element
      exact (admits_slot stands record).bind fun v value => admits_field value named
    · obtain ⟨⟨place, ty⟩, named, ⟨⟩⟩ := Option.map_eq_some_iff.1 item
      have root : (Value.record (.item C.root)).HasTy C.root (.record .item) := .record .self
      exact Admits.bind (.pure root) fun v value => admits_field value named

end Typing

/-- Whatever an expression is compiled to gives values of its type. -/
theorem Expr.isSound (sound : schema.Sound) (e : Expr) : e.IsSound schema := by
  induction e using Expr.induction with
  | step e ih =>
    -- For all scopes and values, as there is a lambda more around the body of a lambda.
    intro scopes typed compiled C bindings same values
    subst same
    cases Typing.compile_rule compiled with
    | bool => exact fun _ => .pure (.bool _)
    | int => exact fun _ => .pure (.int _)
    | real => exact fun _ => .pure (.real _)
    | text => exact fun _ => .pure (.text _)
    | name resolved => exact Typing.name_gives resolved values
    | constant known => exact Typing.constant?_gives known
    | member _ target rule => exact rule.gives ((ih _ (.head _)).gives values target)
    | index target index rule =>
      exact rule.gives ((ih _ (.head _)).gives values target)
        ((ih _ (.tail _ (.head _))).gives values index)
    | unary operand rule => exact rule.gives ((ih _ (.head _)).gives values operand)
    | binary left right rule =>
      exact rule.gives ((ih _ (.head _)).gives values left)
        ((ih _ (.tail _ (.head _))).gives values right)
    | @logical op first rest ts each =>
      intro permits
      have operands := Typing.operands_give each values ih
      have parts : ∀ t ∈ ts, C.Permits schema.helpers t := fun t mem =>
        .of_flatten fun part inside => permits.part (List.mem_flatMap.2 ⟨t, mem, inside⟩)
      refine Conduct.Admits.bind (P := fun _ => True) ?_ fun b _ => .pure (.bool b)
      -- The term has the operands of an operand for its own, which makes no difference.
      rw [Typing.evalLogical_flatMap]
      exact Typing.admits_evalLogical fun t mem => operands t mem (parts t mem)
    | choice rule => exact rule.gives values ih
    | iif rule => exact rule.gives values ih
    | call _ chosen rule =>
      intro permits
      obtain ⟨⟨n, rfl, found⟩, -, -⟩ := Typing.choose?_found chosen
      rw [Nat.zero_add] at permits ⊢
      have mem := List.mem_of_getElem? found
      have bodies := fun arg mem => ih (Arg.body arg) (List.mem_map_of_mem mem)
      refine (rule.suits (sound.variadic _ mem) values bodies fun arg inside =>
        permits.part (List.mem_map_of_mem inside)).bind fun args suit => ?_
      have called := sound.helpers _ mem C (permits.helper found) args suit
      simpa only [Eval.callHelper, found] using called
    | array each joined elem =>
      intro permits
      have elements := Typing.elements_give each values ih (Ty.widens_of_common? joined)
      refine (Typing.admits_array (P := (·.HasTy C.root _)) fun t mem =>
        elements t mem (permits.part mem)).weaken ?_
      rintro _ ⟨vs, rfl, typed⟩
      exact .list fun v mem => Ty.toTy_of_toElem? elem ▸ typed v mem
    | method target rule =>
      have bodies := fun arg mem => ih (Arg.body arg) (.tail _ (List.mem_map_of_mem mem))
      exact rule.gives values bodies ((ih _ (.head _)).gives values target)

end LootFilter
