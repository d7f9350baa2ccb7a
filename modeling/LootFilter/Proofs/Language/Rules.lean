import LootFilter.Language.Typing
import Mathlib.Data.List.Forall2

/-!
# Typing rules

What an accepted expression is compiled to, with one rule for each way of being accepted. Of the
conditions under which the compiler accepts, a rule keeps those that an evaluation relies on.
-/

namespace LootFilter

def Expr.ty? (schema : Schema) (scopes : Scopes) (e : Expr) : Option Ty :=
  match e.compile schema scopes with
  | .ok typed => some typed.2
  | .error _ => none

def Ty.common? : List Ty → Option Ty
  | [] => none
  | ty :: tys => tys.foldlM join? ty

namespace Arg

def body : Arg Expr → Expr
  | plain e => e
  | lambda _ _ body => body

/-- The scope of the argument as a lambda over elements of type `ty`. -/
def scope (ty : Ty) : Arg Expr → Scope
  | plain _ => ⟨"it", ty, true⟩
  | lambda _ param _ => ⟨param, ty, false⟩

def ty? (schema : Schema) (scopes : Scopes) : Arg Expr → Option Ty
  | plain e => e.ty? schema scopes
  | lambda .. => none

end Arg

namespace Expr

def parts : Expr → List Expr
  | bool .. | int .. | real .. | text .. | name .. => []
  | member target _ => [target]
  | call _ _ args => args.map Arg.body
  | method target _ args => target :: args.map Arg.body
  | index target i => [target, i]
  | unary _ _ operand => [operand]
  | binary _ left right => [left, right]
  | logical _ first rest => first :: rest
  | choice condition yes no => [condition, yes, no]
  | array _ items => items

def args : Expr → List (Arg Expr)
  | call _ _ args | method _ _ args => args
  | _ => []

theorem sizeOf_body_lt {args : List (Arg Expr)} {e : Expr} (h : e ∈ args.map Arg.body) :
    sizeOf e < sizeOf args := by
  obtain ⟨arg, mem, rfl⟩ := List.mem_map.1 h
  have smaller := List.sizeOf_lt_of_mem mem
  cases arg <;> simp only [Arg.body, Arg.plain.sizeOf_spec, Arg.lambda.sizeOf_spec] at * <;> omega

theorem sizeOf_part_lt {e part : Expr} (h : part ∈ e.parts) : sizeOf part < sizeOf e := by
  cases e with
  | bool | int | real | text | name => cases h
  | member =>
    obtain rfl := List.mem_singleton.1 h
    simp only [member.sizeOf_spec]
    omega
  | unary =>
    obtain rfl := List.mem_singleton.1 h
    simp only [unary.sizeOf_spec]
    omega
  | call =>
    have smaller := sizeOf_body_lt h
    simp only [call.sizeOf_spec]
    omega
  | method =>
    simp only [method.sizeOf_spec]
    rcases List.mem_cons.1 h with rfl | mem
    · omega
    · have smaller := sizeOf_body_lt mem
      omega
  | index | binary | choice =>
    simp only [parts, List.mem_cons, List.not_mem_nil, or_false] at h
    rcases h with rfl | rfl | rfl <;> simp <;> omega
  | logical =>
    simp only [logical.sizeOf_spec]
    rcases List.mem_cons.1 h with rfl | mem
    · omega
    · have smaller := List.sizeOf_lt_of_mem mem
      omega
  | array pos items =>
    have mem : part ∈ items := h
    have smaller := List.sizeOf_lt_of_mem mem
    simp only [array.sizeOf_spec]
    omega

theorem induction {P : Expr → Prop} (step : ∀ e, (∀ part ∈ e.parts, P part) → P e) (e : Expr) :
    P e :=
  step e fun part _ => induction step part
termination_by sizeOf e
decreasing_by exact sizeOf_part_lt ‹_›

end Expr

def Query.name : Query → String
  | count => "Count"
  | any => "Any"
  | all => "All"
  | filter => "Where"
  | first => "First"
  | map => "Select"
  | sum _ => "Sum"

/-- What a query over elements of type `elem`, in a sequence of type `ty`, gives with a lambda whose
values are of type `mapped`. -/
inductive Query.Gives (ty elem : Ty) : Query → (mapped result : Ty) → Prop
  | count : Gives ty elem .count .bool .int
  | any : Gives ty elem .any .bool .bool
  | all : Gives ty elem .all .bool .bool
  | filter : Gives ty elem .filter .bool ty
  | first : Gives ty elem .first .bool elem
  | map {mapped : Ty} {e : ElemTy} : mapped.toElem? = some e → Gives ty elem .map mapped (.list e)
  | sum {mapped : Ty} : mapped.isNumeric → Gives ty elem (.sum (mapped = .real)) mapped mapped

namespace Typing

/-! ## The rules -/

inductive MemberRule (t : Term) : Ty → String → Typed → Prop
  | field {k : RecordKind} {name : String} {place : Nat} {ty : Ty} :
      k.field? name = some (place, ty) → MemberRule t (.record k) name (.field t place, ty)
  | textLength : MemberRule t .text "Length" (.textLength t, .int)
  | count {ty elem : Ty} {name : String} : ty.element? = some elem →
      name = "Count" ∨ name = "Length" → MemberRule t ty name (.count t, .int)
  | statCount {ty : Ty} : ty = .intStats ∨ ty = .realStats →
      MemberRule t ty "Count" (.statCount t, .int)

inductive IndexRule (t i : Term) : Ty → Ty → Typed → Prop
  | element {ty elem : Ty} : ty.element? = some elem → IndexRule t i ty .int (.index t i, elem)
  | intStat : IndexRule t i .intStats .text (.stat t i, .int)
  | realStat : IndexRule t i .realStats .text (.stat t i, .real)

inductive UnaryRule (t : Term) : UnaryOp → Ty → Typed → Prop
  | not : UnaryRule t .not .bool (.not t, .bool)
  | negate {ty : Ty} : ty.isNumeric → UnaryRule t .negate ty (.negate (ty = .real) t, ty)

inductive BinaryRule (l r : Term) : BinaryOp → Ty → Ty → Typed → Prop
  | compare {c : Comparison} {kind : Scalar} {lt rt : Ty} : comparable? c lt rt = some kind →
      BinaryRule l r (.compare c) lt rt (.compare c kind l r, .bool)
  | join {lt rt : Ty} : lt = .text ∨ rt = .text → lt.isPrintable → rt.isPrintable →
      BinaryRule l r (.compute .add) lt rt (.join l r, .text)
  | whole {a : Arithmetic} : BinaryRule l r (.compute a) .int .int (.compute a false l r, .int)
  | real {a : Arithmetic} {lt rt : Ty} : lt.isNumeric → rt.isNumeric → lt = .real ∨ rt = .real →
      BinaryRule l r (.compute a) lt rt (.compute a true l r, .real)

section expressions

variable (schema : Schema) (scopes : Scopes)

inductive ChoiceRule (condition yes no : Expr) : Typed → Prop
  | choice {c : Term} {y n : Typed} {ty : Ty} : condition.compile schema scopes = .ok (c, .bool) →
      yes.compile schema scopes = .ok y → no.compile schema scopes = .ok n →
      y.2.join? n.2 = some ty →
      ChoiceRule condition yes no (.choice c (widen y ty) (widen n ty), ty)

inductive MethodRule (t : Term) : Ty → String → List (Arg Expr) → Typed → Prop
  | textTest {name : String} {test : TextTest} {wanted : Expr} {w : Term} :
      textTest? name = some test → wanted.compile schema scopes = .ok (w, .text) →
      MethodRule t .text name [.plain wanted]
        (.textTest test t w (.literal (.comparison .ordinal)), .bool)
  | textTestMode {name : String} {test : TextTest} {wanted mode : Expr} {w m : Term} :
      textTest? name = some test → wanted.compile schema scopes = .ok (w, .text) →
      mode.compile schema scopes = .ok (m, .comparison) →
      MethodRule t .text name [.plain wanted, .plain mode] (.textTest test t w m, .bool)
  | textMap {name : String} {map : TextMap} : textMap? name = some map →
      MethodRule t .text name [] (.textMap map t, .text)
  | hasStat {ty : Ty} {key : Expr} {k : Term} : ty = .intStats ∨ ty = .realStats →
      key.compile schema scopes = .ok (k, .text) →
      MethodRule t ty "ContainsKey" [.plain key] (.hasStat t k, .bool)
  | count {ty elem : Ty} : ty.element? = some elem → MethodRule t ty "Count" [] (.count t, .int)
  | isNonempty {ty elem : Ty} : ty.element? = some elem →
      MethodRule t ty "Any" [] (.isNonempty t, .bool)
  | first {ty elem : Ty} : ty.element? = some elem → MethodRule t ty "First" [] (.first t, elem)
  | sum {ty elem : Ty} : ty.element? = some elem → elem.isNumeric →
      MethodRule t ty "Sum" [] (.sum (elem = .real) t, elem)
  | contains {ty elem : Ty} {wanted : Expr} {w : Typed} : ty.element? = some elem →
      wanted.compile schema scopes = .ok w →
      MethodRule t ty "Contains" [.plain wanted] (.contains t w.1, .bool)
  | modStats : MethodRule t .mods "GetStats" [] (.modStats t, .intStats)
  | query {ty elem mapped result : Ty} {q : Query} {arg : Arg Expr} {body : Term} :
      ty.element? = some elem → q.Gives ty elem mapped result →
      arg.body.compile schema (arg.scope elem :: scopes) = .ok (body, mapped) →
      MethodRule t ty q.name [arg] (.query q t body, result)

inductive ArgRule : Ty → Arg Expr → HelperArg Term → Prop
  | value {param ty : Ty} {e : Expr} {t : Term} : e.compile schema scopes = .ok (t, ty) →
      param.accepts ty → ArgRule param (.plain e) (.value t)
  | lambda {elem : ElemTy} {pos : Nat} {param : String} {body : Expr} {t : Term} :
      body.compile schema (⟨param, elem.toTy, false⟩ :: scopes) = .ok (t, .bool) →
      ArgRule (.criterion elem) (.lambda pos param body) (.lambda scopes.length t)

inductive ArgsRule : Option ElemTy → Tail → List Ty → List (Arg Expr) → List (HelperArg Term) → Prop
  | absent : ArgsRule none .absent [] [] []
  | asList {elem : ElemTy} {arg : Arg Expr} {passed : HelperArg Term} :
      ArgRule schema scopes (.list elem) arg passed →
      ArgsRule (some elem) .asList [] [arg] [passed]
  | asElements {elem : ElemTy} {args : List (Arg Expr)} {ts : List Term} :
      List.Forall₂ (fun arg t => ArgRule schema scopes elem.toTy arg (.value t)) args ts →
      ArgsRule (some elem) .asElements [] args [.value (.array ts)]
  | fixed {variadic : Option ElemTy} {tail : Tail} {param : Ty} {params : List Ty} {arg : Arg Expr}
      {args : List (Arg Expr)} {passed : HelperArg Term} {others : List (HelperArg Term)} :
      ArgRule schema scopes param arg passed → ArgsRule variadic tail params args others →
      ArgsRule variadic tail (param :: params) (arg :: args) (passed :: others)

/-- What an expression is compiled to within scopes. -/
inductive Rule : Expr → Typed → Prop
  | bool {pos : Nat} {b : Bool} : Rule (.bool pos b) (.literal (.bool b), .bool)
  | int {pos : Nat} {n : Int} : Rule (.int pos n) (.literal (.int (Int64.ofInt n)), .int)
  | real {pos : Nat} {x : Float} : Rule (.real pos x) (.literal (.real x), .real)
  | text {pos : Nat} {s : String} : Rule (.text pos s) (.literal (.text s), .text)
  | name {pos : Nat} {name : String} {typed : Typed} :
      (param? name scopes).or ((elementField? name scopes).or (itemField? name)) = some typed →
      Rule (.name pos name) typed
  | constant {pos : Nat} {space name : String} {typed : Typed} :
      constant? schema scopes space name pos = .ok (some typed) →
      Rule (.member (.name pos space) name) typed
  | member {target : Expr} {name : String} {t : Term} {ty : Ty} {typed : Typed} :
      (∀ space, target.name? = some space →
        constant? schema scopes space name target.pos = .ok none) →
      target.compile schema scopes = .ok (t, ty) → MemberRule t ty name typed →
      Rule (.member target name) typed
  | index {target index : Expr} {t i typed : Typed} : target.compile schema scopes = .ok t →
      index.compile schema scopes = .ok i → IndexRule t.1 i.1 t.2 i.2 typed →
      Rule (.index target index) typed
  | unary {pos : Nat} {op : UnaryOp} {operand : Expr} {t typed : Typed} :
      operand.compile schema scopes = .ok t → UnaryRule t.1 op t.2 typed →
      Rule (.unary pos op operand) typed
  | binary {op : BinaryOp} {left right : Expr} {l r typed : Typed} :
      left.compile schema scopes = .ok l → right.compile schema scopes = .ok r →
      BinaryRule l.1 r.1 op l.2 r.2 typed → Rule (.binary op left right) typed
  | logical {op : LogicalOp} {first : Expr} {rest : List Expr} {ts : List Term} :
      List.Forall₂ (fun e t => e.compile schema scopes = .ok (t, .bool)) (first :: rest) ts →
      Rule (.logical op first rest) (.logical op (ts.flatMap (flatten op)), .bool)
  | choice {condition yes no : Expr} {typed : Typed} :
      ChoiceRule schema scopes condition yes no typed → Rule (.choice condition yes no) typed
  | iif {pos : Nat} {condition yes no : Expr} {typed : Typed} :
      ChoiceRule schema scopes condition yes no typed →
      Rule (.call pos "iif" [.plain condition, .plain yes, .plain no]) typed
  | call {pos index : Nat} {name : String} {args : List (Arg Expr)} {helper : Helper} {tail : Tail}
      {passed : List (HelperArg Term)} : name ≠ "iif" →
      choose? name (args.map (Arg.ty? schema scopes)) 0 schema.helpers =
        some (index, helper, tail) →
      ArgsRule schema scopes helper.variadic tail helper.params args passed →
      Rule (.call pos name args) (.helper index passed, helper.returns)
  | array {pos : Nat} {items : List Expr} {typed : List Typed} {common : Ty} {elem : ElemTy} :
      List.Forall₂ (fun e t => e.compile schema scopes = .ok t) items typed →
      Ty.common? (typed.map Prod.snd) = some common → common.toElem? = some elem →
      Rule (.array pos items) (.array (typed.map (widen · common)), .list elem)
  | method {target : Expr} {name : String} {args : List (Arg Expr)} {t : Term} {ty : Ty}
      {typed : Typed} : target.compile schema scopes = .ok (t, ty) →
      MethodRule schema scopes t ty name args typed → Rule (.method target name args) typed

end expressions

end Typing

end LootFilter
