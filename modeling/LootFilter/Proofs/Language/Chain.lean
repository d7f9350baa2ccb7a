import LootFilter.Proofs.Language.Query

/-!
# Chains of logical operators

The operands of an operand that the same operator joins are compiled as operands of the whole, to
any depth. That changes neither what a chain comes to nor which of its operands are evaluated, nor
their order. Operands that the other operator joins stay one operand.
-/

namespace LootFilter

open Eval (pureOf)

/-- How far a chain was evaluated: its operands that were, in their order, what the chain comes to,
and the session after it. -/
structure Course (α : Type) where
  trials : List (Trial α)
  answer : Except Fault Bool
  session : Session

namespace Course

variable {α β : Type} {op : LogicalOp} {course : Course α} {rest further : Session → Course α}
  {parts : List (Session → Course α)}

def map (g : α → β) (course : Course α) : Course β :=
  { course with trials := course.trials.map (Trial.map g) }

/-- The course of what no operator joins. -/
def single (test : α → EvalM Bool) (a : α) (s : Session) : Course α :=
  let run := (test a).run.run s
  ⟨[⟨a, run.1, run.2⟩], run.1, run.2⟩

/-- Whether the operands behind it are needed. -/
def isOpen (op : LogicalOp) (course : Course α) : Bool :=
  match course.answer with
  | .ok b => b == op.neutral
  | .error _ => false

def behind (trials : List (Trial α)) (course : Course α) : Course α :=
  { course with trials := trials ++ course.trials }

def andThen (op : LogicalOp) (course : Course α) (rest : Session → Course α) : Course α :=
  if course.isOpen op then (rest course.session).behind course.trials else course

/-- The parts of a chain from the left, until one decides or faults. -/
def chain (op : LogicalOp) : List (Session → Course α) → Session → Course α
  | [], s => ⟨[], .ok op.neutral, s⟩
  | part :: parts, s => (part s).andThen op (chain op parts)

theorem andThen_assoc : (course.andThen op rest).andThen op further =
    course.andThen op fun s => (rest s).andThen op further := by
  by_cases opened : course.isOpen op
  · have first (rest : Session → Course α) :
        course.andThen op rest = (rest course.session).behind course.trials := if_pos opened
    rw [first, first]
    by_cases goesOn : (rest course.session).isOpen op
    · have goesOn' : ((rest course.session).behind course.trials).isOpen op := goesOn
      rw [andThen, if_pos goesOn', andThen, if_pos goesOn]
      simp only [behind, List.append_assoc]
    · have goesOn' : ¬((rest course.session).behind course.trials).isOpen op := goesOn
      rw [andThen, if_neg goesOn', andThen, if_neg goesOn]
  · have ended (rest : Session → Course α) : course.andThen op rest = course := if_neg opened
    rw [ended, ended, ended]

theorem chain_append (parts others : List (Session → Course α)) (s : Session) :
    chain op (parts ++ others) s = (chain op parts s).andThen op (chain op others) := by
  induction parts generalizing s with
  | nil =>
    have opened : (chain (α := α) op [] s).isOpen op := beq_self_eq_true _
    rw [andThen, if_pos opened]
    rfl
  | cons part parts ih =>
    rw [List.cons_append, chain, chain, andThen_assoc]
    exact congrArg _ (funext ih)

theorem map_andThen (g : α → β) : (course.andThen op rest).map g =
    (course.map g).andThen op fun s => (rest s).map g := by
  unfold andThen
  split
  · rename_i opened
    have opened' : (course.map g).isOpen op := opened
    rw [if_pos opened']
    simp only [map, behind, List.map_append]
  · rename_i closed
    have closed' : ¬(course.map g).isOpen op := closed
    rw [if_neg closed']

theorem map_chain (g : α → β) (parts : List (Session → Course α)) (s : Session) :
    (chain op parts s).map g = chain op (parts.map fun part s => (part s).map g) s := by
  induction parts generalizing s with
  | nil => rfl
  | cons part parts ih =>
    rw [chain, map_andThen, List.map_cons, chain]
    exact congrArg _ (funext ih)

end Course

/-! ## Operands -/

namespace Term

def op? : Term → Option LogicalOp
  | logical op _ => some op
  | _ => none

/-- Whether the term holds, with the values of the parameters around it. -/
def holds (helpers : List Helper) (root : Item) (locals : Locals) (t : Term) : EvalM Bool :=
  Machine.within (do pureOf (← t.run helpers root).asBool) locals

mutual

/-- How a term is evaluated whose operands are tested if no operator joins them. -/
def course (test : Term → EvalM Bool) : Term → Session → Course Term
  | logical op operands, s => Course.chain op (courses test operands) s
  | t, s => Course.single test t s

def courses (test : Term → EvalM Bool) : List Term → List (Session → Course Term)
  | [] => []
  | t :: ts => course test t :: courses test ts

end

end Term

namespace Expr

def op? : Expr → Option LogicalOp
  | logical op _ _ => some op
  | _ => none

def term (schema : Schema) (scopes : Scopes) (e : Expr) : Term :=
  match e.compile schema scopes with
  | .ok typed => typed.1
  | .error _ => .root

mutual

/-- How an expression is evaluated as it is written, bracket by bracket. -/
def course (test : Expr → EvalM Bool) : Expr → Session → Course Expr
  | logical op first rest, s => Course.chain op (course test first :: courses test rest) s
  | e, s => Course.single test e s

def courses (test : Expr → EvalM Bool) : List Expr → List (Session → Course Expr)
  | [] => []
  | e :: es => course test e :: courses test es

end

mutual

/-- What the operator joins in an expression, whatever the brackets. -/
def operands (op : LogicalOp) : Expr → List Expr
  | logical inner first rest =>
    if inner = op then operands op first ++ operandsOfAll op rest else [logical inner first rest]
  | e => [e]

def operandsOfAll (op : LogicalOp) : List Expr → List Expr
  | [] => []
  | e :: es => operands op e ++ operandsOfAll op es

end

end Expr

/-! ## Compiling chains -/

namespace Typing

variable {schema : Schema} {scopes : Scopes} {e : Expr} {t u : Term} {ty ty' : Ty} {typed : Typed}
  {name : String}

theorem op?_of_param? (h : param? name scopes = some typed) : typed.1.op? = none := by
  induction scopes with
  | nil => cases h
  | cons scope scopes ih =>
    rw [param?] at h
    split at h
    · cases h
      rfl
    · exact ih h

theorem op?_of_elementField? (h : elementField? name scopes = some typed) :
    typed.1.op? = none := by
  induction scopes with
  | nil => cases h
  | cons scope scopes ih =>
    rw [elementField?] at h
    split at h
    · cases h
      rfl
    · exact ih h

theorem op?_of_name (h : (param? name scopes).or ((elementField? name scopes).or
    (itemField? name)) = some typed) : typed.1.op? = none := by
  rcases Option.or_eq_some_iff.1 h with parameter | ⟨-, h⟩
  · exact op?_of_param? parameter
  · rcases Option.or_eq_some_iff.1 h with element | ⟨-, item⟩
    · exact op?_of_elementField? element
    · obtain ⟨field, -, rfl⟩ := Option.map_eq_some_iff.1 item
      rfl

theorem op?_of_constant? {space : String} {pos : Nat}
    (h : constant? schema scopes space name pos = .ok (some typed)) : typed.1.op? = none := by
  unfold constant? at h
  split at h
  · cases h
  · split at h
    · split at h <;> cases h <;> rfl
    · split at h
      · cases h
      · split at h <;> cases h
        rfl

theorem MemberRule.op? (rule : MemberRule t ty name typed) : typed.1.op? = none := by
  cases rule <;> rfl

theorem IndexRule.op? (rule : IndexRule t u ty ty' typed) : typed.1.op? = none := by
  cases rule <;> rfl

theorem UnaryRule.op? {op : UnaryOp} (rule : UnaryRule t op ty typed) : typed.1.op? = none := by
  cases rule <;> rfl

theorem BinaryRule.op? {op : BinaryOp} (rule : BinaryRule t u op ty ty' typed) :
    typed.1.op? = none := by
  cases rule <;> rfl

theorem ChoiceRule.op? {condition yes no : Expr}
    (rule : ChoiceRule schema scopes condition yes no typed) : typed.1.op? = none := by
  cases rule
  rfl

theorem MethodRule.op? {args : List (Arg Expr)}
    (rule : MethodRule schema scopes t ty name args typed) : typed.1.op? = none := by
  cases rule <;> rfl

/-- Only what an operator joins is compiled to a node of the operator. -/
theorem op?_of_compile (compiled : e.compile schema scopes = .ok typed) :
    typed.1.op? = e.op? := by
  cases compile_rule compiled with
  | name resolved => exact op?_of_name resolved
  | constant known => exact op?_of_constant? known
  | member _ _ rule => exact rule.op?
  | index _ _ rule => exact rule.op?
  | unary _ rule => exact rule.op?
  | binary _ _ rule => exact rule.op?
  | choice rule => exact rule.op?
  | iif rule => exact rule.op?
  | method _ rule => exact rule.op?
  | _ => rfl

end Typing

section chains

variable {schema : Schema} {scopes : Scopes} {e : Expr} {t : Term} {ty : Ty} {op : LogicalOp}

theorem Term.courses_eq_map (test : Term → EvalM Bool) (ts : List Term) :
    courses test ts = ts.map (course test) := by
  induction ts with
  | nil => rfl
  | cons t ts ih => rw [courses, ih, List.map_cons]

theorem Expr.courses_eq_map (test : Expr → EvalM Bool) (es : List Expr) :
    courses test es = es.map (course test) := by
  induction es with
  | nil => rfl
  | cons e es ih => rw [courses, ih, List.map_cons]

theorem Expr.operandsOfAll_eq_flatMap (op : LogicalOp) (es : List Expr) :
    operandsOfAll op es = es.flatMap (operands op) := by
  induction es with
  | nil => rfl
  | cons e es ih => rw [operandsOfAll, ih, List.flatMap_cons]

theorem Term.course_of_op? {test : Term → EvalM Bool} (h : t.op? = none) (s : Session) :
    t.course test s = Course.single test t s := by
  cases t <;> first | rfl | cases h

theorem Expr.course_of_op? {test : Expr → EvalM Bool} (h : e.op? = none) (s : Session) :
    e.course test s = Course.single test e s := by
  cases e <;> first | rfl | cases h

theorem Expr.operands_of_op? (h : e.op? ≠ some op) : e.operands op = [e] := by
  cases e with
  | logical inner first rest => exact if_neg fun same => h (congrArg some same)
  | _ => rfl

theorem Expr.operands_logical (op : LogicalOp) (first : Expr) (rest : List Expr) :
    (logical op first rest).operands op = (first :: rest).flatMap (operands op) := by
  rw [operands, if_pos rfl, operandsOfAll_eq_flatMap, List.flatMap_cons]

theorem Typing.flatten_of_op? (h : t.op? ≠ some op) : flatten op t = [t] := by
  cases t with
  | logical inner operands => exact if_neg fun same => h (congrArg some same)
  | _ => rfl

theorem Typing.flatten_self (op : LogicalOp) (ts : List Term) :
    flatten op (.logical op ts) = ts := if_pos rfl

theorem Expr.term_of_compile (compiled : e.compile schema scopes = .ok (t, ty)) :
    e.term schema scopes = t := by rw [term, compiled]

theorem Typing.logical_rule {first : Expr} {rest : List Expr}
    (compiled : (Expr.logical op first rest).compile schema scopes = .ok (t, ty)) :
    ∃ ts, List.Forall₂ (fun e t => e.compile schema scopes = .ok (t, .bool)) (first :: rest) ts ∧
      t = .logical op (ts.flatMap (flatten op)) ∧ ty = .bool := by
  generalize typed : (t, ty) = whole at compiled
  cases compile_rule compiled with
  | logical each => exact ⟨_, each, Prod.mk.inj typed⟩

/-! ## Operands of a chain -/

/-- The term is an operand in a chain of the operator, and the expression is what it stands for. -/
structure Expr.IsOperand (schema : Schema) (scopes : Scopes) (op : LogicalOp) (e : Expr)
    (t : Term) : Prop where
  compiled : e.compile schema scopes = .ok (t, .bool)
  kept : t.op? = e.op?
  other : t.op? ≠ some op

theorem Expr.operands_of_parts {items : List Expr} {ts : List Term}
    (each : List.Forall₂ (fun e t => e.compile schema scopes = .ok (t, .bool)) items ts)
    (ih : ∀ e ∈ items, ∀ {t}, e.compile schema scopes = .ok (t, .bool) →
      List.Forall₂ (IsOperand schema scopes op) (e.operands op) (Typing.flatten op t)) :
    List.Forall₂ (IsOperand schema scopes op) (items.flatMap (operands op))
      (ts.flatMap (Typing.flatten op)) := by
  induction each with
  | nil => exact .nil
  | cons compiled _ others =>
    have first := ih _ (.head _) compiled
    exact List.rel_append first (others fun e mem => ih e (.tail _ mem))

theorem Expr.operands_of_compile (compiled : e.compile schema scopes = .ok (t, .bool)) :
    List.Forall₂ (IsOperand schema scopes op) (e.operands op) (Typing.flatten op t) := by
  induction e using Expr.induction generalizing t with
  | step e ih =>
    have kept : t.op? = e.op? := Typing.op?_of_compile compiled
    by_cases joined : e.op? = some op
    · cases e with
      | logical inner first rest =>
        -- The operands of an operand are flat by induction, so one level is merged at a time.
        obtain rfl : inner = op := Option.some.inj joined
        obtain ⟨ts, each, rfl, -⟩ := Typing.logical_rule compiled
        rw [operands_logical, Typing.flatten_self]
        exact operands_of_parts each ih
      | _ => cases joined
    · rw [operands_of_op? joined, Typing.flatten_of_op? (kept ▸ joined)]
      exact .cons ⟨compiled, kept, kept ▸ joined⟩ .nil

/-! ## The course of a chain -/

theorem Term.chain_flatten (test : Term → EvalM Bool) (t : Term)
    (parts : List (Session → Course Term)) :
    Course.chain op ((Typing.flatten op t).map (course test) ++ parts) =
      Course.chain op (t.course test :: parts) := by
  funext s
  by_cases joined : t.op? = some op
  · cases t with
    | logical inner ts =>
      obtain rfl : inner = op := Option.some.inj joined
      rw [Typing.flatten_self, Course.chain_append, Course.chain, course, courses_eq_map]
    | _ => cases joined
  · rw [Typing.flatten_of_op? joined]
    rfl

theorem Term.chain_flatMap (test : Term → EvalM Bool) (ts : List Term) :
    Course.chain op ((ts.flatMap (Typing.flatten op)).map (course test)) =
      Course.chain op (ts.map (course test)) := by
  induction ts with
  | nil => rfl
  | cons t ts ih =>
    rw [List.flatMap_cons, List.map_append, chain_flatten, List.map_cons]
    funext s
    rw [Course.chain, ih, Course.chain]

/-- The node of a chain is evaluated as the chain is written, operand by operand. -/
theorem Expr.course_of_compile (test : Term → EvalM Bool)
    (compiled : e.compile schema scopes = .ok (t, ty)) (s : Session) :
    (e.course (fun e => test (e.term schema scopes)) s).map (Expr.term schema scopes) =
      t.course test s := by
  induction e using Expr.induction generalizing t ty s with
  | step e ih =>
    have kept : t.op? = e.op? := Typing.op?_of_compile compiled
    cases e with
    | logical op first rest =>
      obtain ⟨ts, each, rfl, -⟩ := Typing.logical_rule compiled
      have parts : (first :: rest).map (fun e s =>
          (e.course (fun e => test (e.term schema scopes)) s).map (Expr.term schema scopes)) =
          ts.map (Term.course test) := by
        rw [← List.forall₂_eq_eq_eq, List.forall₂_map_left_iff, List.forall₂_map_right_iff]
        refine ((List.forall₂_and_left _ _).2 ⟨ih, each⟩).imp fun e t ⟨same, compiled⟩ => ?_
        exact funext fun s => same compiled s
      rw [Term.course, Term.courses_eq_map, Term.chain_flatMap, course, Course.map_chain,
        courses_eq_map, ← List.map_cons, List.map_map, ← parts]
      rfl
    | _ =>
      rw [course_of_op? rfl, Term.course_of_op? kept, ← term_of_compile compiled]
      rfl

/-! ## Running a chain -/

namespace Term

variable {helpers : List Helper} {root : Item} {locals : Locals}

theorem holds_eq (t : Term) : t.holds helpers root locals =
    (do pureOf (← t.eval helpers root locals).asBool) :=
  ((run_actsAs helpers root t locals).bind fun v => Machine.actsAs_pureOf v.asBool).within

theorem holds_logical (ts : List Term) : (logical op ts).holds helpers root locals =
    evalLogical helpers root op ts locals := by
  rw [holds_eq, eval]
  simp only [bind_assoc, pure_bind, Value.asBool, pureOf, bind_pure]

theorem eval_logical (ts : List Term) : (logical op ts).eval helpers root locals =
    Value.bool <$> (logical op ts).holds helpers root locals := by
  rw [holds_logical, eval, map_eq_pure_bind]

theorem evalLogical_cons (t : Term) (ts : List Term) :
    evalLogical helpers root op (t :: ts) locals = (do
      let b ← t.holds helpers root locals
      if b = op.neutral then evalLogical helpers root op ts locals else return b) := by
  rw [evalLogical, holds_eq, bind_assoc]

theorem run_holds_cons {t : Term} {ts : List Term} {s : Session} {course : Course Term}
    {rest : Session → Course Term}
    (first : (t.holds helpers root locals).run.run s = (course.answer, course.session))
    (others : ∀ s, (evalLogical helpers root op ts locals).run.run s =
      ((rest s).answer, (rest s).session)) :
    (evalLogical helpers root op (t :: ts) locals).run.run s =
      ((course.andThen op rest).answer, (course.andThen op rest).session) := by
  obtain ⟨trials, answer, after⟩ := course
  rw [evalLogical_cons, Conduct.run_bind, first]
  cases answer with
  | error fault => rfl
  | ok b =>
    by_cases neutral : b = op.neutral
    · have opened : Course.isOpen op ⟨trials, .ok b, after⟩ := beq_iff_eq.2 neutral
      simp only [if_pos neutral, Course.andThen, if_pos opened]
      exact others after
    · have closed : ¬ Course.isOpen op ⟨trials, .ok b, after⟩ := fun h => neutral (beq_iff_eq.1 h)
      simp only [if_neg neutral, Course.andThen, if_neg closed]
      rfl

mutual

theorem run_holds (t : Term) (s : Session) : (t.holds helpers root locals).run.run s =
    ((t.course (holds helpers root locals) s).answer,
      (t.course (holds helpers root locals) s).session) := by
  by_cases joined : t.op? = none
  · rw [course_of_op? joined]
    rfl
  · match t with
    | logical op ts =>
      rw [holds_logical, course]
      exact run_evalLogical op ts s

theorem run_evalLogical (op : LogicalOp) (ts : List Term) (s : Session) :
    (evalLogical helpers root op ts locals).run.run s =
      ((Course.chain op (courses (holds helpers root locals) ts) s).answer,
        (Course.chain op (courses (holds helpers root locals) ts) s).session) := by
  match ts with
  | [] => rfl
  | t :: ts => exact run_holds_cons (run_holds t s) (run_evalLogical op ts)

end

end Term

structure Expr.Merges (schema : Schema) (scopes : Scopes) (op : LogicalOp) (e : Expr) (t : Term) :
    Prop where
  /-- The term is one node with all operands of the chain. -/
  node : ∃ ts, t = .logical op ts ∧
    List.Forall₂ (IsOperand schema scopes op) (e.operands op) ts
  /-- The same operands are tested in one order, in the same sessions and with the same outcomes. -/
  trials : ∀ root locals s,
    let holds := Term.holds schema.helpers root locals
    (e.course (fun e => holds (e.term schema scopes)) s).map (Expr.term schema scopes) =
      t.course holds s
  /-- The node comes to what the chain comes to, and leaves the stack as it was. -/
  outcome : ∀ root locals s,
    let holds := Term.holds schema.helpers root locals
    let course := e.course (fun e => holds (e.term schema scopes)) s
    Machine.outcome (t.run schema.helpers root) locals s =
      ((Value.bool <$> course.answer, locals), course.session)

/-- Whatever the brackets in a chain are, and whatever the lambdas around it, its operands become
those of one node, which is evaluated as the chain is written. -/
theorem Expr.merges_of_compile {first : Expr} {rest : List Expr}
    (compiled : (logical op first rest).compile schema scopes = .ok (t, ty)) :
    ty = .bool ∧ Merges schema scopes op (logical op first rest) t := by
  obtain ⟨ts, each, rfl, rfl⟩ := Typing.logical_rule compiled
  have same (root : Item) (locals : Locals) (s : Session) :=
    course_of_compile (Term.holds schema.helpers root locals) compiled s
  refine ⟨rfl, ⟨_, rfl, ?_⟩, same, fun root locals s => ?_⟩
  · rw [← Typing.flatten_self op (ts.flatMap _)]
    exact operands_of_compile compiled
  · have answer := congrArg Course.answer (same root locals s)
    have after := congrArg Course.session (same root locals s)
    dsimp only [Course.map] at answer after
    rw [Term.run_actsAs, Term.eval_logical, Trial.run_map, Term.run_holds, ← answer, ← after]
    rfl

/-- Two chains in brackets in a chain of the same operator, with a chain of the other one in them,
within a lambda whose parameter is a divisor. -/
theorem Expr.merges_brackets : ∃ t,
    let divides : Expr := .binary (.compare .eq)
      (.binary (.compute .rem) (.name 0 "ItemLevel") (.name 0 "x")) (.int 0 0)
    let inner : Expr := .logical .or (.name 0 "IsCorrupted") [.name 0 "IsMirrored"]
    let scopes : Scopes := [⟨"x", .int, false⟩]
    let e : Expr := .logical .and (.logical .and divides [inner]) [.logical .and divides [divides]]
    e.compile .standard scopes = .ok (t, .bool) ∧
      e.operands .and = [divides, inner, divides, divides] ∧
      Merges .standard scopes .and e t :=
  ⟨_, rfl, rfl, (merges_of_compile rfl).2⟩

end chains

end LootFilter
