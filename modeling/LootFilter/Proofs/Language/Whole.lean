import LootFilter.Proofs.Language.Split

/-!
# Arithmetic of whole numbers

Whole numbers are added, subtracted, multiplied and negated with 64 bits, and what does not fit is
wrapped around in every step. As that keeps everything but multiples of 2^64, an expression comes
to what it would come to in unbounded integers, wrapped around once. So neither the order of a sum
matters nor that a sum in between does not fit.
-/

namespace LootFilter

open Conduct (run_bind)
open Eval (pureOf)
open Value (HasTy)

/-! ## Expressions -/

/-- The operations in which wrapping around can be put off. -/
inductive RingOp where
  | add
  | sub
  | mul
deriving DecidableEq, Repr

namespace RingOp

def arithmetic : RingOp → Arithmetic
  | add => .add
  | sub => .sub
  | mul => .mul

def apply : RingOp → Int → Int → Int
  | add, m, n => m + n
  | sub, m, n => m - n
  | mul, m, n => m * n

end RingOp

/-- Where the lambda of a sum names its parameter, and how. -/
abbrev Binder := Option (Nat × String)

namespace Binder

def lambda (binder : Binder) (body : Expr) : Arg Expr :=
  match binder with
  | some (pos, param) => .lambda pos param body
  | none => .plain body

def scope (binder : Binder) (elem : Ty) : Scope :=
  match binder with
  | some (_, param) => ⟨param, elem, false⟩
  | none => ⟨"it", elem, true⟩

end Binder

/-- A number that is made up from numbers by operations of the ring, choices and sums. Conditions,
sequences, and what fields are taken from, can be any expressions. -/
inductive Whole where
  | literal (pos : Nat) (n : Int)
  /-- A field or a parameter. -/
  | name (pos : Nat) (name : String)
  | member (target : Expr) (field : String)
  | negate (pos : Nat) (operand : Whole)
  | compute (op : RingOp) (left right : Whole)
  /-- A choice that is written with `?` and `:`, or else as a call. -/
  | choice (call : Option Nat) (condition : Expr) (yes no : Whole)
  | sum (source : Expr)
  | sumOf (source : Expr) (binder : Binder) (body : Whole)

/-- An expression that is evaluated somewhere in the course of an evaluation. -/
structure Visit where
  expr : Expr
  bindings : Bindings
  session : Session

def Visit.outcome (it : Item) (visit : Visit) : Except Fault Value × Session :=
  (visit.expr.meaning .standard it visit.bindings).run.run visit.session

namespace Whole

def expr : Whole → Expr
  | literal pos n => .int pos n
  | name pos s => .name pos s
  | member target field => .member target field
  | negate pos operand => .unary pos .negate operand.expr
  | compute op left right => .binary (.compute op.arithmetic) left.expr right.expr
  | choice none condition yes no => .choice condition yes.expr no.expr
  | choice (some pos) condition yes no =>
    .call pos "iif" [.plain condition, .plain yes.expr, .plain no.expr]
  | sum source => .method source "Sum" []
  | sumOf source binder body => .method source "Sum" [binder.lambda body.expr]

section exact

variable (it : Item)

def number (v : Value) : EvalM Int := do return (← pureOf v.asInt).toInt

def elements (source : Expr) (bindings : Bindings) : EvalM (List Value) := do
  pureOf (← source.meaning .standard it bindings).elements

/-- The type of a sequence's elements. -/
def elem (source : Expr) (bindings : Bindings) : Ty :=
  ((source.ty? .standard bindings.scopes).bind Ty.element?).getD .int

/-- What the expression would come to if integers had no bounds. Conditions and sequences, and so
the branches that are chosen, are those of the real evaluation. -/
def exact : Whole → Bindings → EvalM Int
  | literal _ n, _ => pure n
  | name _ s, bindings => do number (← Meaning.name it bindings s)
  | member target field, bindings => do
    number (← (Expr.member target field).meaning .standard it bindings)
  | negate _ operand, bindings => do return -(← operand.exact bindings)
  | compute op left right, bindings => do
    let m ← left.exact bindings
    let n ← right.exact bindings
    return op.apply m n
  | choice _ condition yes no, bindings => do
    if ← pureOf (← condition.meaning .standard it bindings).asBool then yes.exact bindings
    else no.exact bindings
  | sum source, bindings => do return (← (← elements it source bindings).mapM number).sum
  | sumOf source binder body, bindings => do
    let vs ← elements it source bindings
    return (← vs.mapM fun v => body.exact (⟨binder.scope (elem source bindings), v⟩ :: bindings)).sum

/-- What the expression comes to: the exact number, wrapped around once. -/
def wrapped (w : Whole) (bindings : Bindings) : EvalM Value :=
  (fun n => .int (Int64.ofInt n)) <$> w.exact it bindings

/-- The conditions, the sequences and the expressions in front of fields that an evaluation comes
by. -/
inductive Visits : Whole → Bindings → Session → Visit → Prop
  | target {target : Expr} {field : String} {bindings : Bindings} {s : Session} :
      Visits (.member target field) bindings s ⟨target, bindings, s⟩
  | negate {pos : Nat} {operand : Whole} {bindings : Bindings} {s : Session} {visit : Visit} :
      Visits operand bindings s visit → Visits (.negate pos operand) bindings s visit
  | left {op : RingOp} {left right : Whole} {bindings : Bindings} {s : Session} {visit : Visit} :
      Visits left bindings s visit → Visits (.compute op left right) bindings s visit
  | right {op : RingOp} {left right : Whole} {bindings : Bindings} {s mid : Session} {n : Int}
      {visit : Visit} : (left.exact it bindings).run.run s = (.ok n, mid) →
      Visits right bindings mid visit → Visits (.compute op left right) bindings s visit
  | condition {call : Option Nat} {condition : Expr} {yes no : Whole} {bindings : Bindings}
      {s : Session} : Visits (.choice call condition yes no) bindings s ⟨condition, bindings, s⟩
  | branch {call : Option Nat} {condition : Expr} {yes no : Whole} {bindings : Bindings}
      {s mid : Session} {b : Bool} {visit : Visit} :
      Visit.outcome it ⟨condition, bindings, s⟩ = (.ok (.bool b), mid) →
      Visits (if b then yes else no) bindings mid visit →
      Visits (.choice call condition yes no) bindings s visit
  | sum {source : Expr} {bindings : Bindings} {s : Session} :
      Visits (.sum source) bindings s ⟨source, bindings, s⟩
  | sumOf {source : Expr} {binder : Binder} {body : Whole} {bindings : Bindings} {s : Session} :
      Visits (.sumOf source binder body) bindings s ⟨source, bindings, s⟩
  | element {source : Expr} {binder : Binder} {body : Whole} {bindings : Bindings}
      {s mid next : Session} {v element : Value} {before behind : List Value} {numbers : List Int}
      {visit : Visit} : Visit.outcome it ⟨source, bindings, s⟩ = (.ok v, mid) →
      v.elements = .ok (before ++ element :: behind) →
      (before.mapM fun v => body.exact it (⟨binder.scope (elem source bindings), v⟩ ::
        bindings)).run.run mid = (.ok numbers, next) →
      Visits body (⟨binder.scope (elem source bindings), element⟩ :: bindings) next visit →
      Visits (.sumOf source binder body) bindings s visit

end exact

/-! ## One wrap -/

variable {it : Item} {bindings : Bindings} {t : Term} {v : Value}

theorem asInt_int (n : Int64) : (pureOf (Value.int n).asInt : EvalM Int64) = pure n := rfl

theorem number_int (n : Int64) : number (.int n) = pure n.toInt := rfl

theorem wrap_number (h : v.HasTy it .int) :
    pure v = (fun n => .int (Int64.ofInt n)) <$> number v := by
  cases h with
  | int n => rw [number_int, map_pure, Int64.ofInt_toInt]

theorem wrap_numbers {e : EvalM Value} (typed : (Conduct.free it).Admits e fun v => v.HasTy it .int) :
    e = (fun n => .int (Int64.ofInt n)) <$> (e >>= number) := by
  have same := typed.bind_congr fun v h => wrap_number h
  rwa [bind_pure, ← map_bind] at same

theorem negate_wrapped (n : Int) :
    Meaning.unary .negate (.int (Int64.ofInt n)) = pure (.int (Int64.ofInt (-n))) := by
  rw [Int64.ofInt_neg]
  rfl

theorem compute_wrapped (op : RingOp) (m n : Int) :
    Meaning.binary (.compute op.arithmetic) (.int (Int64.ofInt m)) (.int (Int64.ofInt n)) =
      pure (.int (Int64.ofInt (op.apply m n))) := by
  cases op with
  | add => rw [RingOp.apply, Int64.ofInt_add]; rfl
  | sub => rw [RingOp.apply, Int64.ofInt_sub]; rfl
  | mul => rw [RingOp.apply, Int64.ofInt_mul]; rfl

theorem foldlM_wrapped {f : Value → EvalM Value} {g : Value → EvalM Int} {vs : List Value}
    (same : ∀ v ∈ vs, f v = (fun n => .int (Int64.ofInt n)) <$> g v) (sum : Int64) :
    vs.foldlM (fun sum v => do return sum + (← pureOf (← f v).asInt)) sum =
      (fun numbers => sum + Int64.ofInt numbers.sum) <$> vs.mapM g := by
  induction vs generalizing sum with
  | nil => simp
  | cons v vs ih =>
    obtain ⟨first, others⟩ := List.forall_mem_cons.1 same
    simp only [List.foldlM_cons, List.mapM_cons, first, bind_map_left, map_bind, bind_assoc,
      map_pure, asInt_int, pure_bind]
    refine congrArg (g v >>= ·) (funext fun n => ?_)
    rw [ih others, map_eq_pure_bind]
    refine congrArg (vs.mapM g >>= ·) (funext fun numbers => ?_)
    rw [List.sum_cons, Int64.ofInt_add, Int64.add_assoc]

theorem sumOf_wrapped {f : Value → EvalM Value} {g : Value → EvalM Int} {vs : List Value}
    (same : ∀ v ∈ vs, f v = (fun n => .int (Int64.ofInt n)) <$> g v) :
    Eval.sumOf false f vs = (fun numbers => .int (Int64.ofInt numbers.sum)) <$> vs.mapM g := by
  simp only [Eval.sumOf, Bool.false_eq_true, if_false, foldlM_wrapped same, Functor.map_map,
    Int64.zero_add]

/-! ## Accepted expressions -/

theorem widened_int (v : Value) : Meaning.widened (some .int) v = v := by
  cases v <;> rfl

/-- Choices between numbers widen nothing. -/
theorem choice_numbers {condition yes no : Expr} {y n : Term}
    (first : yes.compile .standard bindings.scopes = .ok (y, .int))
    (second : no.compile .standard bindings.scopes = .ok (n, .int)) :
    Meaning.choice .standard bindings ((Arg.plain condition).operand .standard it)
      ((Arg.plain yes).operand .standard it) ((Arg.plain no).operand .standard it) = (do
        if ← pureOf (← condition.meaning .standard it bindings).asBool then
          yes.meaning .standard it bindings
        else no.meaning .standard it bindings) := by
  have wide : Ty.join? .int .int = some .int := rfl
  have same (e : EvalM Value) : Meaning.widened (some .int) <$> e = e := by
    rw [funext widened_int, id_map']
  simp only [Meaning.choice, Arg.operand, Arg.ty?, Expr.ty?_of_compile first,
    Expr.ty?_of_compile second, Option.bind_eq_bind, Option.bind_some, wide, same,
    Meaning.Operand.value, Arg.body]

theorem branches_of_rule {condition yes no : Expr} {scopes : Scopes}
    (rule : Typing.ChoiceRule .standard scopes condition yes no (t, .int)) :
    (∃ c, condition.compile .standard scopes = .ok (c, .bool)) ∧
      (∃ y, yes.compile .standard scopes = .ok (y, .int)) ∧
      ∃ n, no.compile .standard scopes = .ok (n, .int) := by
  cases rule with
  | @choice c y n _ compiled first second joined =>
    obtain ⟨y, yt⟩ := y
    obtain ⟨n, nt⟩ := n
    have whole {ty : Ty} (widens : ty.Widens .int) : ty = .int :=
      widens.elim id fun other => other.1
    obtain ⟨widens, widens'⟩ := Ty.widens_of_join? joined
    obtain rfl : yt = .int := whole widens
    obtain rfl : nt = .int := whole widens'
    exact ⟨⟨c, compiled⟩, ⟨y, first⟩, n, second⟩

theorem branches_of_compile {call : Option Nat} {condition : Expr} {yes no : Whole}
    {scopes : Scopes}
    (compiled : (choice call condition yes no).expr.compile .standard scopes = .ok (t, .int)) :
    (∃ c, condition.compile .standard scopes = .ok (c, .bool)) ∧
      (∃ y, yes.expr.compile .standard scopes = .ok (y, .int)) ∧
      ∃ n, no.expr.compile .standard scopes = .ok (n, .int) := by
  cases call with
  | none =>
    cases Typing.compile_rule compiled with
    | choice rule => exact branches_of_rule rule
  | some pos =>
    have rule := Typing.compile_rule compiled
    generalize typing : (t, Ty.int) = typed at rule
    cases rule with
    | iif rule =>
      cases typing
      exact branches_of_rule rule
    | call other => exact (other rfl).elim

theorem operands_of_compile {op : RingOp} {left right : Whole} {scopes : Scopes}
    (compiled : (compute op left right).expr.compile .standard scopes = .ok (t, .int)) :
    (∃ l, left.expr.compile .standard scopes = .ok (l, .int)) ∧
      ∃ r, right.expr.compile .standard scopes = .ok (r, .int) := by
  cases Typing.compile_rule compiled with
  | @binary _ _ _ l r _ first second rule =>
    obtain ⟨l, lt⟩ := l
    obtain ⟨r, rt⟩ := r
    generalize op.arithmetic = a at rule
    dsimp only at rule
    cases rule with
    | whole => exact ⟨⟨l, first⟩, r, second⟩

theorem operand_of_compile {pos : Nat} {operand : Whole} {scopes : Scopes}
    (compiled : (negate pos operand).expr.compile .standard scopes = .ok (t, .int)) :
    ∃ u, operand.expr.compile .standard scopes = .ok (u, .int) := by
  cases Typing.compile_rule compiled with
  | @unary _ _ _ u _ inner rule =>
    obtain ⟨u, ty⟩ := u
    dsimp only at rule
    generalize typing : (t, Ty.int) = typed at rule
    cases rule with
    | negate =>
      cases typing
      exact ⟨u, inner⟩

theorem source_of_sum {source : Expr} {scopes : Scopes}
    (compiled : (sum source).expr.compile .standard scopes = .ok (t, .int)) :
    ∃ u ty, source.compile .standard scopes = .ok (u, ty) ∧ ty.element? = some .int := by
  cases Typing.compile_rule compiled with
  | @method _ _ _ u ty _ found rule =>
    generalize called : "Sum" = name, typing : (t, Ty.int) = typed at rule
    cases rule with
    | @sum _ elem sequence =>
      cases typing
      exact ⟨u, ty, found, sequence⟩
    | count => exact absurd called (by decide)
    | first => exact absurd called (by decide)
    | _ => cases typing

theorem parts_of_sumOf {source : Expr} {binder : Binder} {body : Whole} {scopes : Scopes}
    (compiled : (sumOf source binder body).expr.compile .standard scopes = .ok (t, .int)) :
    ∃ u ty elem b, source.compile .standard scopes = .ok (u, ty) ∧ ty.element? = some elem ∧
      body.expr.compile .standard (binder.scope elem :: scopes) = .ok (b, .int) := by
  cases Typing.compile_rule compiled with
  | @method _ _ _ u ty _ found rule =>
    generalize called : "Sum" = name, passed : [binder.lambda body.expr] = args,
      typing : (t, Ty.int) = typed at rule
    cases rule with
    | @query _ elem _ _ q arg b sequence gives within =>
      cases passed
      cases gives with
      | sum numeric =>
        cases typing
        exact ⟨u, ty, elem, b, found, sequence, by cases binder <;> exact within⟩
      | _ => exact absurd called (by decide)
    | count => cases passed
    | first => cases passed
    | sum => cases passed
    | _ => cases typing

/-! ## Values -/

theorem elem_of_compile {source : Expr} {ty elem : Ty}
    (found : source.compile .standard bindings.scopes = .ok (t, ty))
    (sequence : ty.element? = some elem) : Whole.elem source bindings = elem := by
  rw [Whole.elem, Expr.ty?_of_compile found, Option.bind_some, sequence, Option.getD_some]

theorem typed_cons (binder : Binder) {elem : Ty} (values : bindings.Typed it)
    (h : v.HasTy it elem) : Bindings.Typed it (⟨binder.scope elem, v⟩ :: bindings) :=
  values.cons _ (by cases binder <;> exact h)

section values

variable (values : bindings.Typed it)

include values

theorem admits_meaning {e : Expr} {ty : Ty}
    (compiled : e.compile .standard bindings.scopes = .ok (t, ty)) :
    (Conduct.free it).Admits (e.meaning .standard it bindings) fun v => v.HasTy it ty := by
  rw [← Expr.means Schema.standard_sound Helper.standard_respects e it bindings _ compiled values]
  exact Expr.admits_free Schema.standard_sound compiled values

section sums

variable {source : Expr} {ty elem : Ty}
  (found : source.compile .standard bindings.scopes = .ok (t, ty))
  (sequence : ty.element? = some elem)

include found sequence

theorem admits_elements :
    (Conduct.free it).Admits (elements it source bindings) fun vs => ∀ v ∈ vs, v.HasTy it elem :=
  (admits_meaning values found).bind fun _ h => (Conduct.answers_elements sequence h).admits

theorem sumOf_elements {f : Value → EvalM Value} {g : Value → EvalM Int}
    (same : ∀ v, v.HasTy it elem → f v = (fun n => .int (Int64.ofInt n)) <$> g v) :
    (do Eval.sumOf false f (← elements it source bindings)) =
      (fun n => .int (Int64.ofInt n)) <$>
        (do return (← (← elements it source bindings).mapM g).sum : EvalM Int) := by
  simp only [map_bind, map_pure]
  refine (admits_elements values found sequence).bind_congr fun vs typed => ?_
  rw [sumOf_wrapped fun v mem => same v (typed v mem), map_eq_pure_bind]

theorem meaning_method (name : String) (args : List (Arg Expr)) :
    (Expr.method source name args).meaning .standard it bindings = (do
      Meaning.sequenceMethod .standard bindings (← source.meaning .standard it bindings) elem name
        (args.map (Arg.operand .standard it))) := by
  rw [Expr.meaning, Expr.ty?_of_compile found, Expr.meaningArgs_eq_map]
  exact (admits_meaning values found).bind_congr fun v h => Meaning.method_of_sequence sequence h

theorem meaning_sum (whole : elem = .int) : (sum source).expr.meaning .standard it bindings =
    (do Eval.sumOf false pure (← elements it source bindings)) := by
  subst whole
  rw [expr, meaning_method values found sequence, elements, bind_assoc]
  rfl

theorem meaning_sumOf {binder : Binder} {body : Whole} {b : Term}
    (inner : body.expr.compile .standard (binder.scope elem :: bindings.scopes) = .ok (b, .int)) :
    (sumOf source binder body).expr.meaning .standard it bindings = (do
      Eval.sumOf false
        (fun v => body.expr.meaning .standard it (⟨binder.scope elem, v⟩ :: bindings))
        (← elements it source bindings)) := by
  have gives : Query.Gives ty elem (.sum (Ty.int = .real)) .int .int := .sum rfl
  have queried (v : Value) : Meaning.sequenceMethod .standard bindings v elem "Sum"
      [(binder.lambda body.expr).operand .standard it] = (do
        Eval.sumOf false
          (fun v => body.expr.meaning .standard it (⟨binder.scope elem, v⟩ :: bindings))
          (← pureOf v.elements)) := by
    cases binder <;> exact Meaning.sequenceMethod_of_query gives (Expr.ty?_of_compile inner)
  rw [expr, meaning_method values found sequence, List.map_cons, List.map_nil, funext queried,
    elements, bind_assoc]

end sums

/-- An accepted expression comes to the exact number, wrapped around. -/
theorem meaning_eq_wrapped (w : Whole)
    (compiled : w.expr.compile .standard bindings.scopes = .ok (t, .int)) :
    w.expr.meaning .standard it bindings = w.wrapped it bindings := by
  induction w generalizing bindings t with
  | literal pos n => rfl
  | name | member => exact wrap_numbers (admits_meaning values compiled)
  | negate pos operand ih =>
    obtain ⟨u, inner⟩ := operand_of_compile compiled
    simp only [expr, Expr.meaning, ih values inner, wrapped, exact, bind_map_left, negate_wrapped,
      map_bind, map_pure]
  | compute op left right ih ih' =>
    obtain ⟨⟨l, first⟩, r, second⟩ := operands_of_compile compiled
    simp only [expr, Expr.meaning, ih values first, ih' values second, wrapped, exact,
      bind_map_left, compute_wrapped, map_bind, map_pure]
  | choice call condition yes no ih ih' =>
    obtain ⟨-, ⟨y, first⟩, n, second⟩ := branches_of_compile compiled
    have chosen : (choice call condition yes no).expr.meaning .standard it bindings = (do
        if ← pureOf (← condition.meaning .standard it bindings).asBool then
          yes.expr.meaning .standard it bindings
        else no.expr.meaning .standard it bindings) := by
      cases call with
      | none => exact choice_numbers first second
      | some pos => exact choice_numbers first second
    simp only [chosen, ih values first, ih' values second, wrapped, exact, map_bind]
    refine congrArg _ (funext fun v => congrArg _ (funext fun b => ?_))
    cases b <;> rfl
  | sum source =>
    obtain ⟨u, ty, found, sequence⟩ := source_of_sum compiled
    rw [meaning_sum values found sequence rfl]
    exact sumOf_elements values found sequence fun v h => wrap_number h
  | sumOf source binder body ih =>
    obtain ⟨u, ty, elem, b, found, sequence, inner⟩ := parts_of_sumOf compiled
    rw [meaning_sumOf values found sequence inner, wrapped, exact, elem_of_compile found sequence]
    exact sumOf_elements values found sequence fun v h => ih (typed_cons binder values h) inner

end values

/-! ## Faults -/

section faults

variable {α β : Type} {e : EvalM α} {s after : Session} {fault : Fault}

/-- The conduct of an evaluation that never faults. -/
def total (it : Item) : Conduct := ⟨it, True, fun _ => False⟩

theorem run_total {P : α → Prop} (h : (total it).Admits e P) : e.run.run s ≠ (.error fault, after) := by
  intro run
  have answers := h.answers s
  rw [run] at answers
  exact answers

theorem admits_named {k : RecordKind} {name : String} {place : Nat} {ty : Ty}
    (h : v.HasTy it (.record k)) (named : k.field? name = some (place, ty)) :
    (total it).Admits (Meaning.field v name) fun v => v.HasTy it ty := by
  rw [← Meaning.field_eq h named]
  exact Conduct.admits_field h named

theorem admits_name {name : String} {typed : Typed}
    (resolved : (Typing.param? name bindings.scopes).or
      ((Typing.elementField? name bindings.scopes).or (Typing.itemField? name)) = some typed)
    (values : bindings.Typed it) :
    (total it).Admits (Meaning.name it bindings name) fun _ => True := by
  obtain ⟨t, ty⟩ := typed
  rcases Option.or_eq_some_iff.1 resolved with parameter | ⟨noParameter, resolved⟩
  · obtain ⟨n, binding, -, -, first⟩ := Bindings.param?_of_scopes parameter
    rw [Meaning.name, first]
    exact .pure trivial
  · rw [Meaning.name, Bindings.param?_eq_none noParameter]
    rcases Option.or_eq_some_iff.1 resolved with element | ⟨noElement, item⟩
    · obtain ⟨n, binding, k, place, -, -, record, named, first⟩ :=
        Bindings.element?_of_scopes values element
      rw [first]
      exact (admits_named record named).weaken fun _ _ => trivial
    · obtain ⟨⟨place, ty⟩, named, -⟩ := Option.map_eq_some_iff.1 item
      rw [Bindings.element?_eq_none values noElement]
      exact (admits_named (.record (r := .item it) .self) named).weaken fun _ _ => trivial

theorem admits_member {ty : Ty} {name : String} {typed : Typed}
    (rule : Typing.MemberRule t ty name typed) (h : v.HasTy it ty) :
    (total it).Admits (Meaning.member v name) fun _ => True := by
  cases rule with
  | field named =>
    have field := (admits_named h named).weaken fun _ _ => trivial
    cases h
    exact field
  | textLength =>
    cases h
    exact .pure trivial
  | count sequence named =>
    rw [← Meaning.count_eq sequence h named]
    exact (Conduct.answers_elements sequence h).admits.bind fun _ _ => .pure trivial
  | statCount table => rcases table with rfl | rfl <;> cases h <;> exact .pure trivial

/-- A fault of a sequence of two evaluations is one of the first, or else of the second. -/
theorem fault_of_bind {f : α → EvalM β} (run : (e >>= f).run.run s = (.error fault, after)) :
    e.run.run s = (.error fault, after) ∨
      ∃ a mid, e.run.run s = (.ok a, mid) ∧ (f a).run.run mid = (.error fault, after) := by
  rw [run_bind] at run
  generalize e.run.run s = first at run
  obtain ⟨answer, mid⟩ := first
  cases answer with
  | ok a => exact .inr ⟨a, mid, rfl, run⟩
  | error found =>
    cases run
    exact .inl rfl

theorem fault_of_mapM {f : α → EvalM β} {as : List α}
    (run : (as.mapM f).run.run s = (.error fault, after)) :
    ∃ before a behind bs mid, as = before ++ a :: behind ∧
      (before.mapM f).run.run s = (.ok bs, mid) ∧ (f a).run.run mid = (.error fault, after) := by
  induction as generalizing s with
  | nil => cases run
  | cons a as ih =>
    rw [List.mapM_cons] at run
    rcases fault_of_bind run with first | ⟨b, mid, first, rest⟩
    · exact ⟨[], a, as, [], s, rfl, rfl, first⟩
    · rcases fault_of_bind rest with rest | ⟨_, _, _, ⟨⟩⟩
      obtain ⟨before, found, behind, bs, next, rfl, passed, fails⟩ := ih rest
      refine ⟨a :: before, found, behind, b :: bs, next, rfl, ?_, fails⟩
      rw [List.mapM_cons, run_bind, first]
      change (before.mapM f >>= _ : EvalM _).run.run mid = _
      rw [run_bind, passed]
      rfl

theorem admits_number (h : v.HasTy it .int) : (total it).Admits (number v) fun _ => True :=
  (Conduct.answers_asInt h).admits.bind fun _ _ => .pure trivial

section visits

variable (values : bindings.Typed it)

include values

theorem typed_of_run {e : Expr} {ty : Ty} {mid : Session}
    (compiled : e.compile .standard bindings.scopes = .ok (t, ty))
    (run : (e.meaning .standard it bindings).run.run s = (.ok v, mid)) : v.HasTy it ty := by
  have answers := (admits_meaning values compiled).answers s
  rw [run] at answers
  exact answers

theorem fault_of_member {target : Expr} {field : String} {ty : Ty}
    (compiled : (Expr.member target field).compile .standard bindings.scopes = .ok (t, ty))
    (run : ((Expr.member target field).meaning .standard it bindings).run.run s =
      (.error fault, after)) :
    (target.meaning .standard it bindings).run.run s = (.error fault, after) := by
  cases Typing.compile_rule compiled with
  | constant known =>
    obtain ⟨constant, found, -⟩ := Meaning.constant?_means it known
    simp only [Expr.meaning, Expr.name?, Option.bind_some, found] at run
    cases run
  | member other known rule =>
    have noConstant : (target.name?.bind fun space =>
        Meaning.constant? .standard bindings space field) = none :=
      Option.bind_eq_none_iff.2 fun space named => Meaning.constant?_eq_none (other space named)
    rw [Expr.meaning, noConstant] at run
    rcases fault_of_bind run with first | ⟨v, mid, found, rest⟩
    · exact first
    · exact (run_total (admits_member rule (typed_of_run values known found)) rest).elim

theorem fault_of_elements {source : Expr} {ty elem : Ty}
    (found : source.compile .standard bindings.scopes = .ok (t, ty))
    (sequence : ty.element? = some elem)
    (run : (elements it source bindings).run.run s = (.error fault, after)) :
    (source.meaning .standard it bindings).run.run s = (.error fault, after) := by
  rcases fault_of_bind run with first | ⟨v, mid, passed, rest⟩
  · exact first
  · have reads := Conduct.answers_elements (C := total it) sequence
      (typed_of_run values found passed)
    exact (run_total reads.admits rest).elim

theorem run_elements {source : Expr} {ty elem : Ty} {vs : List Value} {mid : Session}
    (found : source.compile .standard bindings.scopes = .ok (t, ty))
    (sequence : ty.element? = some elem)
    (run : (elements it source bindings).run.run s = (.ok vs, mid)) :
    (∃ v, (source.meaning .standard it bindings).run.run s = (.ok v, mid) ∧ v.elements = .ok vs) ∧
      ∀ v ∈ vs, v.HasTy it elem := by
  have typed := (admits_elements values found sequence).answers s
  rw [run] at typed
  refine ⟨?_, typed⟩
  rw [elements, run_bind] at run
  generalize (source.meaning .standard it bindings).run.run s = first at run
  obtain ⟨answer, next⟩ := first
  cases answer with
  | ok v =>
    refine ⟨v, ?_⟩
    cases found : v.elements with
    | ok vs =>
      simp only [found] at run
      cases run
      exact ⟨rfl, rfl⟩
    | error fault =>
      simp only [found] at run
      cases run
  | error fault => cases run

end visits

/-- A fault of an evaluation is one of a condition, of a sequence or of what a field is taken from. -/
theorem fault_visited (w : Whole) (values : bindings.Typed it)
    (compiled : w.expr.compile .standard bindings.scopes = .ok (t, .int))
    (run : (w.exact it bindings).run.run s = (.error fault, after)) :
    ∃ visit, w.Visits it bindings s visit ∧ visit.outcome it = (.error fault, after) := by
  induction w generalizing bindings t s with
  | literal pos n => cases run
  | name pos s =>
    rcases fault_of_bind run with first | ⟨v, mid, found, rest⟩
    · cases Typing.compile_rule compiled with
      | name resolved => exact (run_total (admits_name resolved values) first).elim
    · exact (run_total (admits_number (typed_of_run values compiled found)) rest).elim
  | member target field =>
    rcases fault_of_bind run with first | ⟨v, mid, found, rest⟩
    · exact ⟨_, .target, fault_of_member values compiled first⟩
    · exact (run_total (admits_number (typed_of_run values compiled found)) rest).elim
  | negate pos operand ih =>
    obtain ⟨u, inner⟩ := operand_of_compile compiled
    rcases fault_of_bind run with first | ⟨n, mid, -, ⟨⟩⟩
    obtain ⟨visit, visited, fails⟩ := ih values inner first
    exact ⟨visit, .negate visited, fails⟩
  | compute op left right ih ih' =>
    obtain ⟨⟨l, first⟩, r, second⟩ := operands_of_compile compiled
    rcases fault_of_bind run with fails | ⟨m, mid, found, rest⟩
    · obtain ⟨visit, visited, fails⟩ := ih values first fails
      exact ⟨visit, .left visited, fails⟩
    · rcases fault_of_bind rest with fails | ⟨n, last, -, ⟨⟩⟩
      obtain ⟨visit, visited, fails⟩ := ih' values second fails
      exact ⟨visit, .right found visited, fails⟩
  | choice call condition yes no ih ih' =>
    obtain ⟨⟨c, known⟩, ⟨y, first⟩, n, second⟩ := branches_of_compile compiled
    rcases fault_of_bind run with fails | ⟨v, mid, found, rest⟩
    · exact ⟨_, .condition, fails⟩
    · cases typed_of_run values known found with
      | bool b =>
        have branch : ((if b then yes else no).exact it bindings).run.run mid =
            (.error fault, after) := by
          cases b <;> exact rest
        suffices ∃ visit, (if b then yes else no).Visits it bindings mid visit ∧
            visit.outcome it = (.error fault, after) by
          obtain ⟨visit, visited, fails⟩ := this
          exact ⟨visit, .branch found visited, fails⟩
        cases b with
        | true => exact ih values first branch
        | false => exact ih' values second branch
  | sum source =>
    obtain ⟨u, ty, known, sequence⟩ := source_of_sum compiled
    rcases fault_of_bind run with fails | ⟨vs, mid, found, rest⟩
    · exact ⟨_, .sum, fault_of_elements values known sequence fails⟩
    · obtain ⟨-, typed⟩ := run_elements values known sequence found
      have numbers : (total it).Admits (vs.mapM number) _ :=
        Conduct.admits_mapM fun v mem => admits_number (typed v mem)
      rcases fault_of_bind rest with fails | ⟨numbers, last, -, ⟨⟩⟩
      exact (run_total numbers fails).elim
  | sumOf source binder body ih =>
    obtain ⟨u, ty, elem, b, known, sequence, inner⟩ := parts_of_sumOf compiled
    rcases fault_of_bind run with fails | ⟨vs, mid, found, rest⟩
    · exact ⟨_, .sumOf, fault_of_elements values known sequence fails⟩
    · rcases fault_of_bind rest with fails | ⟨numbers, last, -, ⟨⟩⟩
      obtain ⟨before, v, behind, numbers, next, rfl, passed, fails⟩ := fault_of_mapM fails
      obtain ⟨⟨whole, sourced, parts⟩, typed⟩ := run_elements values known sequence found
      have within := typed_cons binder values (typed v (by simp))
      rw [← elem_of_compile known sequence] at within inner
      obtain ⟨visit, visited, fails⟩ := ih within inner fails
      exact ⟨visit, .element sourced parts passed visited, fails⟩

end faults

end Whole

end LootFilter
