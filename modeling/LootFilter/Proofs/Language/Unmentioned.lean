import LootFilter.Proofs.Language.Congruence
import LootFilter.Proofs.Language.Names

/-!
# Parameters that are not mentioned

A lambda whose parameter an expression does not mention can be put around it, at any depth: the
expression has the same type and means the same. Its term differs, since the stack has one place
more.
-/

namespace LootFilter

variable {schema : Schema}

/-! ## Types -/

namespace Typing

variable {s : Scope} {inner outer : Scopes} {name : String}

def AnyTerms (_ _ : Term) : Prop := True

/-- Terms, whatever they are, of one type. -/
def SameType : Typed → Typed → Prop := RelatedAs AnyTerms

theorem param?_insert (other : name ≠ s.name) :
    (param? name (inner ++ s :: outer)).map Prod.snd =
      (param? name (inner ++ outer)).map Prod.snd := by
  induction inner with
  | nil => rw [List.nil_append, param?, if_neg other.symm, List.nil_append]
  | cons scope inner ih =>
    rw [List.cons_append, List.cons_append, param?, param?]
    split
    · rfl
    · exact ih

theorem elementField?_insert (named : s.implicit = false) :
    (elementField? name (inner ++ s :: outer)).map Prod.snd =
      (elementField? name (inner ++ outer)).map Prod.snd := by
  have hidden : s.field? name = none := by rw [Scope.field?, named]
  induction inner with
  | nil => rw [List.nil_append, elementField?, hidden, List.nil_append]
  | cons scope inner ih =>
    rw [List.cons_append, List.cons_append, elementField?, elementField?]
    cases scope.field? name with
    | none => exact ih
    | some found => rfl

theorem identifier_agree {scopes scopes' : Scopes} {pos : Nat}
    (parameters : (param? name scopes).map Prod.snd = (param? name scopes').map Prod.snd)
    (elements : (elementField? name scopes).map Prod.snd =
      (elementField? name scopes').map Prod.snd) :
    Agree SameType (identifier scopes name pos) (identifier scopes' name pos) := by
  have types : ((param? name scopes).or ((elementField? name scopes).or (itemField? name))).map
      Prod.snd = ((param? name scopes').or
        ((elementField? name scopes').or (itemField? name))).map Prod.snd := by
    rw [Option.map_or, Option.map_or, Option.map_or, Option.map_or, parameters, elements]
  unfold identifier reject
  revert types
  cases (param? name scopes).or ((elementField? name scopes).or (itemField? name)) <;>
    cases (param? name scopes').or ((elementField? name scopes').or (itemField? name)) <;>
    intro types
  case none.none => exact .error _
  case some.some => exact .ok ⟨trivial, Option.some.inj types⟩
  all_goals cases types

theorem constant?_insert {space member : String} {pos : Nat} (other : space ≠ s.name) :
    constant? schema (inner ++ s :: outer) space member pos =
      constant? schema (inner ++ outer) space member pos := by
  have same : (inner ++ s :: outer).any (·.name = space) =
      (inner ++ outer).any (·.name = space) := by
    simp only [List.any_append, List.any_cons, other.symm, decide_false, Bool.false_or]
  unfold constant?
  rw [same]

theorem namesAgree_insert (named : s.implicit = false) :
    NamesAgree schema AnyTerms (fun _ _ => True) (· ≠ s.name) (inner ++ s :: outer)
      (inner ++ outer) where
  height := trivial
  name space other :=
    { identifier := fun _ =>
        identifier_agree (param?_insert other) (elementField?_insert named)
      constant? := fun member pos => by
        rw [constant?_insert other]
        cases constant? schema (inner ++ outer) space member pos with
        | error e => exact .error e
        | ok found =>
          cases found with
          | none => exact .absent
          | some typed => exact .found ⟨trivial, rfl⟩ }

end Typing

namespace Expr

variable {e : Expr} {s : Scope} {inner outer : Scopes}

theorem compile_insert (named : s.implicit = false) (unmentioned : ¬e.Mentions s.name) :
    Typing.Agree Typing.SameType (e.compile schema (inner ++ s :: outer))
      (e.compile schema (inner ++ outer)) := by
  have alike : Typing.CompilesAlike schema Typing.AnyTerms (fun _ _ => True) (· ≠ s.name) e :=
    Typing.compilesAlike (fun _ _ _ => trivial) fun name mentioned same =>
      unmentioned (same ▸ mentioned)
  refine alike _ _ fun further => ?_
  rw [← List.append_assoc, ← List.append_assoc]
  exact Typing.namesAgree_insert named

theorem compile_within {t : Term} {ty : Ty} (named : s.implicit = false)
    (unmentioned : ¬e.Mentions s.name) (compiled : e.compile schema outer = .ok (t, ty)) :
    ∃ u, e.compile schema (s :: outer) = .ok (u, ty) := by
  have agree : Typing.Agree Typing.SameType (e.compile schema ([] ++ s :: outer))
    (e.compile schema ([] ++ outer)) := compile_insert named unmentioned
  rw [List.nil_append, List.nil_append, compiled] at agree
  generalize e.compile schema (s :: outer) = found at agree ⊢
  cases agree with
  | @ok typed _ related => exact ⟨typed.1, congrArg (fun ty => Except.ok (typed.1, ty)) related.2⟩

theorem ty?_insert (named : s.implicit = false) (unmentioned : ¬e.Mentions s.name) :
    e.ty? schema (inner ++ s :: outer) = e.ty? schema (inner ++ outer) := by
  have agree : Typing.Agree Typing.SameType (e.compile schema (inner ++ s :: outer))
    (e.compile schema (inner ++ outer)) := compile_insert named unmentioned
  unfold ty?
  revert agree
  generalize e.compile schema (inner ++ s :: outer) = found
  generalize e.compile schema (inner ++ outer) = found'
  rintro (related | _)
  · exact congrArg some related.2
  · rfl

end Expr

/-! ## Meanings -/

variable {root : Item}

namespace Bindings

variable {b : Binding} {inner outer : Bindings} {name : String}

theorem scopes_append : scopes (inner ++ outer) = inner.scopes ++ outer.scopes := List.map_append

theorem param?_insert (other : name ≠ b.scope.name) :
    param? name (inner ++ b :: outer) = param? name (inner ++ outer) := by
  simp only [param?, List.find?_append, List.find?_cons, other.symm, decide_false]

theorem element?_insert (named : b.scope.implicit = false) :
    element? name (inner ++ b :: outer) = element? name (inner ++ outer) := by
  simp only [element?, List.find?_append, List.find?_cons, named, Bool.false_and]

end Bindings

namespace Meaning

open Eval (pureOf)

variable {bindings bindings' : Bindings} {v : Value} {name : String} {args : List Operand}

/-- Whether an operand has the same type and means the same within two lists of bindings, by itself
and as a lambda. -/
structure Operand.Alike (schema : Schema) (bindings bindings' : Bindings) (operand : Operand) :
    Prop where
  value : operand.value bindings = operand.value bindings'
  ty? : operand.arg.ty? schema bindings.scopes = operand.arg.ty? schema bindings'.scopes
  lambda : ∀ elem v, operand.lambda bindings elem v = operand.lambda bindings' elem v
  mapped : ∀ elem, operand.arg.body.ty? schema (operand.arg.scope elem :: bindings.scopes) =
    operand.arg.body.ty? schema (operand.arg.scope elem :: bindings'.scopes)

theorem constant?_congr {space : String} (same : bindings.param? space = bindings'.param? space) :
    constant? schema bindings space name = constant? schema bindings' space name := by
  unfold constant?
  rw [same]

theorem choice_congr {condition yes no : Operand} (c : condition.Alike schema bindings bindings')
    (y : yes.Alike schema bindings bindings') (n : no.Alike schema bindings bindings') :
    choice schema bindings condition yes no = choice schema bindings' condition yes no := by
  unfold choice
  rw [c.value, y.value, n.value, y.ty?, n.ty?]

theorem textMethod_congr (alike : ∀ arg ∈ args, arg.Alike schema bindings bindings') :
    textMethod bindings v name args = textMethod bindings' v name args := by
  unfold textMethod
  split
  · rw [(alike _ (.head _)).value]
  · rw [(alike _ (.head _)).value, (alike _ (.tail _ (.head _))).value]
  · rfl
  · rfl

theorem sequenceMethod_congr (alike : ∀ arg ∈ args, arg.Alike schema bindings bindings')
    (elem : Ty) : sequenceMethod schema bindings v elem name args =
    sequenceMethod schema bindings' v elem name args := by
  unfold sequenceMethod
  split
  any_goals rfl
  · rw [(alike _ (.head _)).value]
  · rename_i lambda _
    have same := alike lambda (.head _)
    rw [same.mapped, funext (same.lambda elem)]

theorem method_congr (alike : ∀ arg ∈ args, arg.Alike schema bindings bindings') (ty : Option Ty) :
    method schema bindings ty v name args = method schema bindings' ty v name args := by
  unfold method
  split
  · exact textMethod_congr alike
  · rw [(alike _ (.head _)).value]
  · rw [(alike _ (.head _)).value]
  · split
    · exact sequenceMethod_congr alike _
    · rfl

theorem argument_congr {operand : Operand} (alike : operand.Alike schema bindings bindings')
    (param : Ty) : argument bindings param operand = argument bindings' param operand := by
  unfold argument
  split
  · rw [funext (alike.lambda _)]
  · rw [alike.value]

theorem arguments_congr (alike : ∀ arg ∈ args, arg.Alike schema bindings bindings')
    (tail : Typing.Tail) (params : List Ty) :
    arguments bindings tail params args = arguments bindings' tail params args := by
  induction params generalizing args with
  | nil =>
    simp only [arguments]
    rw [Eval.mapM_congr fun arg mem => (alike arg mem).value]
  | cons param params ih =>
    cases args with
    | nil => rfl
    | cons operand args =>
      obtain ⟨first, others⟩ := List.forall_mem_cons.1 alike
      rw [arguments, arguments, argument_congr first, ih others]

theorem call_congr (alike : ∀ arg ∈ args, arg.Alike schema bindings bindings') :
    call schema root bindings name args = call schema root bindings' name args := by
  have types : args.map (·.arg.ty? schema bindings.scopes) =
      args.map (·.arg.ty? schema bindings'.scopes) :=
    List.map_congr_left fun arg mem => (alike arg mem).ty?
  unfold call
  rw [types]
  split
  · rw [arguments_congr alike]
  · rfl

end Meaning

namespace Expr

open Bindings (scopes scopes_append scopes_cons)

variable {b : Binding} {inner outer : Bindings} {e : Expr}

/-- A parameter that is not mentioned does not matter for the meaning of an expression. -/
theorem meaning_insert (named : b.scope.implicit = false) (unmentioned : ¬e.Mentions b.scope.name) :
    e.meaning schema root (inner ++ b :: outer) = e.meaning schema root (inner ++ outer) := by
  induction e using Expr.induction generalizing inner with
  | step e ih =>
  have same {part : Expr} (mem : part ∈ e.parts) (more : Bindings) :
      part.meaning schema root (more ++ (inner ++ b :: outer)) =
        part.meaning schema root (more ++ (inner ++ outer)) := by
    rw [← List.append_assoc, ← List.append_assoc]
    exact ih part mem fun within => unmentioned (.part mem within)
  have types {part : Expr} (mem : part ∈ e.parts) (more : Scopes) :
      part.ty? schema (more ++ scopes (inner ++ b :: outer)) =
        part.ty? schema (more ++ scopes (inner ++ outer)) := by
    rw [scopes_append, scopes_append, scopes_cons, ← List.append_assoc, ← List.append_assoc]
    exact ty?_insert named fun within => unmentioned (.part mem within)
  have here {part : Expr} (mem : part ∈ e.parts) : part.meaning schema root (inner ++ b :: outer) =
      part.meaning schema root (inner ++ outer) := same mem []
  have typed {part : Expr} (mem : part ∈ e.parts) : part.ty? schema (scopes (inner ++ b :: outer)) =
      part.ty? schema (scopes (inner ++ outer)) := types mem []
  have operand (arg : Arg Expr) (mem : arg.body ∈ e.parts) :
      (arg.operand schema root).Alike schema (inner ++ b :: outer) (inner ++ outer) :=
    { value := by
        cases arg with
        | plain e => exact here mem
        | lambda pos param body => rfl
      ty? := by
        cases arg with
        | plain e => exact typed mem
        | lambda pos param body => rfl
      lambda := fun elem v => same mem [⟨arg.scope elem, v⟩]
      mapped := fun elem => types mem [arg.scope elem] }
  have operands (args : List (Arg Expr)) (mem : ∀ part ∈ args.map Arg.body, part ∈ e.parts) :
      ∀ o ∈ args.map (Arg.operand schema root),
        o.Alike schema (inner ++ b :: outer) (inner ++ outer) :=
    List.forall_mem_map.2 fun arg within => operand arg (mem _ (List.mem_map_of_mem within))
  cases e with
  | bool | int | real | text => rfl
  | name pos name =>
    have other : name ≠ b.scope.name := fun same => unmentioned (same ▸ .name)
    rw [meaning, meaning, Meaning.name, Meaning.name, Bindings.param?_insert other,
      Bindings.element?_insert named]
  | member target name =>
    rw [meaning, meaning, here (.head _)]
    cases target with
    | name pos space =>
      have other : space ≠ b.scope.name := fun same => unmentioned (.part (.head _) (same ▸ .name))
      have constant : Meaning.constant? schema (inner ++ b :: outer) space name =
          Meaning.constant? schema (inner ++ outer) space name :=
        Meaning.constant?_congr (Bindings.param?_insert other)
      simp only [name?, Option.bind_some, constant]
    | _ => rfl
  | call pos name args =>
    have alike := operands args fun _ => id
    rw [meaning, meaning, meaningArgs_eq_map]
    split
    · split
      · rename_i shape
        rw [shape] at alike
        exact Meaning.choice_congr (alike _ (.head _)) (alike _ (.tail _ (.head _)))
          (alike _ (.tail _ (.tail _ (.head _))))
      · rfl
    · exact Meaning.call_congr alike
  | method target name args =>
    rw [meaning, meaning, meaningArgs_eq_map, here (.head _), typed (.head _)]
    exact congrArg _ (funext fun v => Meaning.method_congr (operands args fun _ => .tail _) _)
  | index target i =>
    rw [meaning, meaning, here (.head _), here (.tail _ (.head _))]
  | unary pos op operand => rw [meaning, meaning, here (.head _)]
  | binary op left right =>
    rw [meaning, meaning, here (.head _), here (.tail _ (.head _))]
  | logical op first rest =>
    have chain : (first :: rest).map (fun part => part.meaning schema root (inner ++ b :: outer)) =
        (first :: rest).map fun part => part.meaning schema root (inner ++ outer) :=
      List.map_congr_left fun part mem => here mem
    simp only [List.map_cons] at chain
    simp only [meaning, meaningItems_eq_map, List.map_cons, List.map_map, Function.comp_def, chain]
  | choice condition yes no =>
    rw [meaning, meaning]
    exact Meaning.choice_congr (operand (.plain condition) (.head _))
      (operand (.plain yes) (.tail _ (.head _))) (operand (.plain no) (.tail _ (.tail _ (.head _))))
  | array pos items =>
    have values := Eval.mapM_congr (m := EvalM) fun part (mem : part ∈ items) => here mem
    have elements : items.mapM (ty? schema (scopes (inner ++ b :: outer))) =
        items.mapM (ty? schema (scopes (inner ++ outer))) :=
      Eval.mapM_congr fun part mem => typed mem
    simp only [meaning, meaningItems_eq_map, List.mapM_map, Function.comp_def, values, elements]

/-- The term of an expression within one lambda more does what it does without the lambda. -/
theorem eval_insert {bindings : Bindings} {t u : Term} {ty ty' : Ty} (sound : schema.Sound)
    (respects : ∀ helper ∈ schema.helpers, helper.Respects) (values : bindings.Typed root)
    (value : b.value.HasTy root b.scope.ty) (named : b.scope.implicit = false)
    (unmentioned : ¬e.Mentions b.scope.name)
    (compiled : e.compile schema bindings.scopes = .ok (t, ty))
    (deeper : e.compile schema (b.scope :: bindings.scopes) = .ok (u, ty')) :
    u.eval schema.helpers root (bindings.locals.push b.value) =
      t.eval schema.helpers root bindings.locals := by
  have means := e.means sound respects
  have within := means.eval (values.cons b.scope value) deeper
  rw [Bindings.locals_cons] at within
  rw [within, means.eval values compiled]
  have same : e.meaning schema root ([] ++ b :: bindings) =
    e.meaning schema root ([] ++ bindings) := meaning_insert named unmentioned
  exact same

end Expr

end LootFilter
