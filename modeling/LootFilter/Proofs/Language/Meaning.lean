import LootFilter.Proofs.Language.Bindings

/-!
# What expressions mean

An expression is evaluated directly, in an environment that is keyed by names. A name is the
parameter of the innermost lambda that has it; or else the field of the element of the innermost
lambda without a parameter of its own, if that element has such a field; or else the field of the
item. A lambda sees the values that the parameters around it have at the place where it is written.

What an operation does is told by the values that it is applied to. The type of an expression is
asked for only where values do not tell: for what alternatives and elements are widened to, for sums
of nothing, and for which helper takes the arguments.
-/

namespace LootFilter

namespace Meaning

open Eval (pureOf)

/-- The meaning of an expression that has none; no such expression is accepted. -/
def meaningless {α : Type} : EvalM α := throw (.typeMismatch .missingArgument)

/-! ## Names -/

def field (v : Value) (name : String) : EvalM Value :=
  match v with
  | .record r =>
    match r.kind.named? name with
    | some field => r.read field
    | none => meaningless
  | _ => meaningless

def name (root : Item) (bindings : Bindings) (name : String) : EvalM Value :=
  match bindings.param? name, bindings.element? name with
  | some binding, _ => pure binding.value
  | none, some binding => field binding.value name
  | none, none => field (.record (.item root)) name

/-- The constant that a member of a namespace is. A parameter hides a namespace of its name. -/
def constant? (schema : Schema) (bindings : Bindings) (space member : String) : Option Value :=
  if (bindings.param? space).isSome then none
  else if space = "StringComparison" then
    match member with
    | "Ordinal" => some (.comparison .ordinal)
    | "OrdinalIgnoreCase" => some (.comparison .ignoreCase)
    | _ => none
  else
    (schema.enumerations.lookup space).bind fun members =>
      if members.contains member then some (.text member) else none

/-! ## Operations -/

def count (v : Value) : EvalM Value := do return .int (.ofNat (← pureOf v.elements).length)

def member (v : Value) (name : String) : EvalM Value :=
  match v, name with
  | .record r, _ => field (.record r) name
  | .text s, "Length" => pure (.int (.ofNat s.length))
  | .list _, "Count" | .list _, "Length" | .mods _, "Count" | .mods _, "Length" => count v
  | .intStats _, "Count" | .realStats _, "Count" => pureOf (Eval.statCount v)
  | _, _ => meaningless

def index (v : Value) (place : EvalM Value) : EvalM Value :=
  match v with
  | .intStats _ | .realStats _ => do pureOf (Eval.stat v (← pureOf (← place).asText))
  | _ => do
    let vs ← pureOf v.elements
    pureOf (Eval.nth vs (← pureOf (← place).asInt))

def unary (op : UnaryOp) (v : Value) : EvalM Value :=
  match op, v with
  | .not, v => do return .bool (!(← pureOf v.asBool))
  | .negate, .int n => pure (.int (-n))
  | .negate, v => do return .real (-(← pureOf v.asReal))

def kind : Value → Value → Scalar
  | .int _, .int _ => .int
  | .text _, .text _ => .text
  | .bool _, .bool _ => .bool
  | _, _ => .real

def isText : Value → Bool
  | .text _ => true
  | _ => false

def isReal : Value → Bool
  | .real _ => true
  | _ => false

def binary (op : BinaryOp) (v w : Value) : EvalM Value :=
  match op with
  | .compare c => pureOf (Eval.compare c (kind v w) v w)
  | .compute a =>
    if a = .add && (isText v || isText w) then do
      let s ← pureOf v.print
      return .text (s ++ (← pureOf w.print))
    else pureOf (Eval.compute a (isReal v || isReal w) v w)

def logical (op : LogicalOp) : List (EvalM Value) → EvalM Bool
  | [] => pure op.neutral
  | operand :: operands => do
    let b ← pureOf (← operand).asBool
    if b = op.neutral then logical op operands else return b

def widened (wide : Option Ty) (v : Value) : Value :=
  match wide, v with
  | some .real, .int n => .real n.toFloat
  | _, v => v

/-! ## Calls -/

structure Operand where
  arg : Arg Expr
  meaning : Bindings → EvalM Value

namespace Operand

variable (bindings : Bindings)

def value (operand : Operand) : EvalM Value :=
  match operand.arg with
  | .plain _ => operand.meaning bindings
  | .lambda .. => meaningless

def lambda (operand : Operand) (elem : Ty) (v : Value) : EvalM Value :=
  operand.meaning (⟨operand.arg.scope elem, v⟩ :: bindings)

end Operand

def choice (schema : Schema) (bindings : Bindings) (condition yes no : Operand) : EvalM Value := do
  let wide := do (← yes.arg.ty? schema bindings.scopes).join? (← no.arg.ty? schema bindings.scopes)
  if ← pureOf (← condition.value bindings).asBool then
    widened wide <$> yes.value bindings
  else widened wide <$> no.value bindings

def textMethod (bindings : Bindings) (v : Value) (name : String) (args : List Operand) :
    EvalM Value :=
  match Typing.textTest? name, Typing.textMap? name, args with
  | some test, _, [wanted] => do
    let w ← wanted.value bindings
    let s ← pureOf v.asText
    return .bool (Eval.testText test .ordinal s (← pureOf w.asText))
  | some test, _, [wanted, mode] => do
    let w ← wanted.value bindings
    let mode ← pureOf (Eval.asMode (← mode.value bindings))
    let s ← pureOf v.asText
    return .bool (Eval.testText test mode s (← pureOf w.asText))
  | _, some map, [] => do return .text (Eval.mapText map (← pureOf v.asText))
  | _, _, _ => meaningless

def query? (name : String) (isReal : Bool) : Option Query :=
  match name with
  | "Count" => some .count
  | "Any" => some .any
  | "All" => some .all
  | "Where" => some .filter
  | "First" => some .first
  | "Select" => some .map
  | "Sum" => some (.sum isReal)
  | _ => none

def sequenceMethod (schema : Schema) (bindings : Bindings) (v : Value) (elem : Ty) (name : String)
    (args : List Operand) : EvalM Value :=
  match name, args with
  | "Count", [] => count v
  | "Any", [] => do return .bool (!(← pureOf v.elements).isEmpty)
  | "First", [] => do pureOf (Eval.head (← pureOf v.elements))
  | "Sum", [] => do Eval.sumOf (elem = .real) pure (← pureOf v.elements)
  | "GetStats", [] => do return .intStats (← Session.sumMods (← pureOf v.asMods))
  | "Contains", [wanted] => do
    let vs ← pureOf v.elements
    let w ← wanted.value bindings
    return .bool (vs.any (·.equals w))
  | name, [lambda] =>
    let mapped := lambda.arg.body.ty? schema (lambda.arg.scope elem :: bindings.scopes)
    match query? name (mapped = some .real) with
    | some q => Eval.query q (lambda.lambda bindings elem) v
    | none => meaningless
  | _, _ => meaningless

def method (schema : Schema) (bindings : Bindings) (ty : Option Ty) (v : Value) (name : String)
    (args : List Operand) : EvalM Value :=
  match v, args with
  | .text _, _ => textMethod bindings v name args
  | .intStats _, [key] | .realStats _, [key] => do
    pureOf (Eval.hasStat v (← pureOf (← key.value bindings).asText))
  | _, _ =>
    match ty.bind Ty.element? with
    | some elem => sequenceMethod schema bindings v elem name args
    | none => meaningless

def argument (bindings : Bindings) (param : Ty) (operand : Operand) : EvalM Argument :=
  match operand.arg, param with
  | .lambda .., .criterion elem => pure (.lambda (Eval.test (operand.lambda bindings elem.toTy)))
  | _, _ => .value <$> operand.value bindings

def arguments (bindings : Bindings) (tail : Typing.Tail) :
    List Ty → List Operand → EvalM (List Argument)
  | param :: params, operand :: operands => do
    let first ← argument bindings param operand
    return first :: (← arguments bindings tail params operands)
  | _, operands => do
    let vs ← operands.mapM (Operand.value bindings)
    match tail with
    | .absent | .asList => return vs.map .value
    | .asElements => return [.value (.list vs)]

def call (schema : Schema) (root : Item) (bindings : Bindings) (name : String)
    (args : List Operand) : EvalM Value :=
  match Typing.choose? name (args.map (·.arg.ty? schema bindings.scopes)) 0 schema.helpers with
  | some (_, helper, tail) => do helper.call root (← arguments bindings tail helper.params args)
  | none => meaningless

end Meaning

namespace Expr

open Eval (pureOf)

variable (schema : Schema) (root : Item)

mutual

/-- The value of an expression for the item `root`, within lambdas whose parameters have values. -/
def meaning : Expr → Bindings → EvalM Value
  | bool _ b, _ => pure (.bool b)
  | int _ n, _ => pure (.int (Int64.ofInt n))
  | real _ x, _ => pure (.real x)
  | text _ s, _ => pure (.text s)
  | name _ s, bindings => Meaning.name root bindings s
  | member target wanted, bindings =>
    match target.name?.bind fun space => Meaning.constant? schema bindings space wanted with
    | some v => pure v
    | none => do Meaning.member (← meaning target bindings) wanted
  | call _ helper args, bindings =>
    let operands := meaningArgs args
    if helper = "iif" then
      match operands with
      | [condition, yes, no] => Meaning.choice schema bindings condition yes no
      | _ => Meaning.meaningless
    else Meaning.call schema root bindings helper operands
  | method target called args, bindings => do
    let v ← meaning target bindings
    Meaning.method schema bindings (target.ty? schema bindings.scopes) v called (meaningArgs args)
  | index target place, bindings => do
    Meaning.index (← meaning target bindings) (meaning place bindings)
  | unary _ op operand, bindings => do Meaning.unary op (← meaning operand bindings)
  | binary op left right, bindings => do
    let v ← meaning left bindings
    let w ← meaning right bindings
    Meaning.binary op v w
  | logical op first rest, bindings => do
    let operands := meaning first :: meaningItems rest
    return .bool (← Meaning.logical op (operands.map (· bindings)))
  | choice condition yes no, bindings =>
    Meaning.choice schema bindings ⟨.plain condition, meaning condition⟩ ⟨.plain yes, meaning yes⟩
      ⟨.plain no, meaning no⟩
  | array _ items, bindings => do
    let wide := (items.mapM (ty? schema bindings.scopes)).bind Ty.common?
    let vs ← (meaningItems items).mapM (· bindings)
    return .list (vs.map (Meaning.widened wide))

def meaningItems : List Expr → List (Bindings → EvalM Value)
  | [] => []
  | e :: es => meaning e :: meaningItems es

def meaningArgs : List (Arg Expr) → List Meaning.Operand
  | [] => []
  | .plain e :: args => ⟨.plain e, meaning e⟩ :: meaningArgs args
  | .lambda pos param body :: args => ⟨.lambda pos param body, meaning body⟩ :: meaningArgs args

end

end Expr

end LootFilter
