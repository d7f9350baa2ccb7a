import LootFilter.Language.Helper
import LootFilter.Language.Expr.Parse
import LootFilter.Language.Term
import LootFilter.Session.Field

/-!
# Compiling expressions

Compiling an expression finds out what its names mean and what type it has. A name is the parameter
of the innermost lambda that has it; or else a field of the element of the innermost lambda without
a parameter of its own, if its element has such a field; or else a field of the item.
-/

namespace LootFilter

/-- A lambda around an expression. -/
structure Scope where
  /-- The parameter; `it`, if the lambda does not name one. -/
  name : String
  ty : Ty
  implicit : Bool

abbrev Typed := Term × Ty

/-- The scopes around an expression, the innermost first. -/
abbrev Scopes := List Scope

/-- An expression that waits for its scopes. If it is the body of a lambda, `param` is the lambda's
parameter. -/
structure Pending where
  pos : Nat
  param : Option String
  compile : Scopes → Except CompileError Typed

def Scope.field? (scope : Scope) (name : String) : Option (Nat × Ty) :=
  match scope.implicit, scope.ty with
  | true, .record kind => kind.field? name
  | _, _ => none

namespace Typing

open CompileError (Cause)

variable {α : Type}

def reject (pos : Nat) (cause : Cause) : Except CompileError α := .error ⟨cause, pos⟩

/-! ## Names -/

/-- The parameter with a name. Its place on the stack is the number of lambdas further outside. -/
def param? (name : String) : Scopes → Option Typed
  | [] => none
  | scope :: scopes =>
    if scope.name = name then some (.slot scopes.length, scope.ty) else param? name scopes

/-- The field with a name of the innermost unnamed element that has one. -/
def elementField? (name : String) : Scopes → Option Typed
  | [] => none
  | scope :: scopes =>
    match scope.field? name with
    | some (index, ty) => some (.field (.slot scopes.length) index, ty)
    | none => elementField? name scopes

def itemField? (name : String) : Option Typed :=
  (RecordKind.item.field? name).map fun (index, ty) => (.field .root index, ty)

def identifier (scopes : Scopes) (name : String) (pos : Nat) : Except CompileError Typed :=
  match (param? name scopes).or ((elementField? name scopes).or (itemField? name)) with
  | some typed => .ok typed
  | none => reject pos (.unknownField name RecordKind.item.name)

/-- The constant that a member of a namespace is; none if the name is not that of a namespace. -/
def constant? (schema : Schema) (scopes : Scopes) (space member : String) (pos : Nat) :
    Except CompileError (Option Typed) :=
  if scopes.any (·.name = space) then .ok none
  else if space = "StringComparison" then
    match member with
    | "Ordinal" => .ok (some (.literal (.comparison .ordinal), .comparison))
    | "OrdinalIgnoreCase" => .ok (some (.literal (.comparison .ignoreCase), .comparison))
    | _ => reject pos (.notAMember member space)
  else
    match schema.enumerations.lookup space with
    | none => .ok none
    | some members =>
      if members.contains member then .ok (some (.literal (.text member), .text))
      else reject pos (.notAMember member space)

def member (target : Typed) (name : String) (pos : Nat) : Except CompileError Typed :=
  let (t, ty) := target
  match ty, name with
  | .record kind, _ =>
    match kind.field? name with
    | some (index, ty) => .ok (.field t index, ty)
    | none => reject pos (.unknownField name kind.name)
  | .text, "Length" => .ok (.textLength t, .int)
  | .list _, "Count" | .list _, "Length" | .mods, "Count" | .mods, "Length" => .ok (.count t, .int)
  | .intStats, "Count" | .realStats, "Count" => .ok (.statCount t, .int)
  | _, _ => reject pos (.unknownField name ty.name)

/-! ## Operators -/

def index (target index : Typed) (pos : Nat) : Except CompileError Typed :=
  let (t, ty) := target
  let (i, indexTy) := index
  match ty, indexTy with
  | .list e, .int => .ok (.index t i, e.toTy)
  | .mods, .int => .ok (.index t i, .record .modifier)
  | .intStats, .text => .ok (.stat t i, .int)
  | .realStats, .text => .ok (.stat t i, .real)
  | _, _ => reject pos (.notIndexable ty indexTy)

def unary (op : UnaryOp) (operand : Typed) (pos : Nat) : Except CompileError Typed :=
  let (t, ty) := operand
  match op, ty with
  | .not, .bool => .ok (.not t, .bool)
  | .negate, .int => .ok (.negate false t, .int)
  | .negate, .real => .ok (.negate true t, .real)
  | _, _ => reject pos (.badOperand op.symbol ty)

def comparable? (c : Comparison) (left right : Ty) : Option Scalar :=
  match left, right with
  | .int, .int => some .int
  | .int, .real | .real, .int | .real, .real => some .real
  | .text, .text => some .text
  | .bool, .bool => if c.isOrdering then none else some .bool
  | _, _ => none

def binary (op : BinaryOp) (left right : Typed) (pos : Nat) : Except CompileError Typed :=
  let (l, lt) := left
  let (r, rt) := right
  let bad := reject pos (.badOperands op.symbol lt rt)
  match op with
  | .compare c =>
    match comparable? c lt rt with
    | some kind => .ok (.compare c kind l r, .bool)
    | none => bad
  | .compute a =>
    if a = .add && (lt = .text || rt = .text) then
      if lt.isPrintable && rt.isPrintable then .ok (.join l r, .text) else bad
    else if lt.isNumeric && rt.isNumeric then
      if lt = .real || rt = .real then .ok (.compute a true l r, .real)
      else .ok (.compute a false l r, .int)
    else bad

def widen (typed : Typed) (wide : Ty) : Term :=
  if wide = .real && typed.2 = .int then .toReal typed.1 else typed.1

/-- The operands that an operand of a logical operator stands for: its own ones, if it is an
expression of the same operator. -/
def flatten (op : LogicalOp) (t : Term) : List Term :=
  match t with
  | .logical inner operands => if inner = op then operands else [t]
  | _ => [t]

/-! ## Pending expressions -/

def alone (p : Pending) (scopes : Scopes) : Except CompileError Typed :=
  match p.param with
  | some _ => reject p.pos .strayLambda
  | none => p.compile scopes

def onElements (p : Pending) (ty : Ty) (scopes : Scopes) : Except CompileError Typed :=
  p.compile ({ name := p.param.getD "it", ty, implicit := p.param.isNone } :: scopes)

def testing (p : Pending) (ty : Ty) (scopes : Scopes) : Except CompileError Term := do
  let (body, found) ← onElements p ty scopes
  if found = .bool then return body else reject p.pos (.lambdaNotBoolean found)

def operands (op : LogicalOp) (scopes : Scopes) : List Pending → Except CompileError (List Term)
  | [] => .ok []
  | p :: ps => do
    let (t, ty) ← alone p scopes
    if ty ≠ .bool then reject p.pos (.badOperand op.symbol ty)
    return flatten op t ++ (← operands op scopes ps)

def choice (condition yes no : Pending) (scopes : Scopes) : Except CompileError Typed := do
  let (c, conditionTy) ← alone condition scopes
  if conditionTy ≠ .bool then reject condition.pos (.conditionNotBoolean conditionTy)
  let y ← alone yes scopes
  let n ← alone no scopes
  match y.2.join? n.2 with
  | some ty => return (.choice c (widen y ty) (widen n ty), ty)
  | none => reject no.pos (.branchesDiffer y.2 n.2)

def commonType (common : Ty) : List (Nat × Ty) → Except CompileError Ty
  | [] => .ok common
  | (pos, ty) :: rest =>
    match common.join? ty with
    | some ty => commonType ty rest
    | none => reject pos (.elementsDiffer ty common)

def array (items : List Pending) (scopes : Scopes) (pos : Nat) : Except CompileError Typed := do
  let typed ← items.mapM (alone · scopes)
  match (items.map Pending.pos).zip (typed.map Prod.snd) with
  | [] => reject pos .emptyArray
  | (_, first) :: rest =>
    let common ← commonType first rest
    match common.toElem? with
    | some e => return (.array (typed.map (widen · common)), .list e)
    | none => reject pos (.unsupportedArray common)

/-! ## Methods -/

def textTest? : String → Option TextTest
  | "Contains" => some .contains
  | "StartsWith" => some .startsWith
  | "EndsWith" => some .endsWith
  | "Equals" => some .equals
  | _ => none

def textMap? : String → Option TextMap
  | "ToLower" => some .lower
  | "ToUpper" => some .upper
  | "Trim" => some .trim
  | _ => none

def wantedText (name : String) (arg : Pending) (scopes : Scopes) (pos : Nat) :
    Except CompileError Term := do
  let (t, ty) ← alone arg scopes
  if ty = .text then return t else reject pos (.argumentNotText name ty)

def textMethod (t : Term) (name : String) (args : List Pending) (scopes : Scopes) (pos : Nat) :
    Except CompileError (Option Typed) :=
  match textTest? name, textMap? name, args with
  | some test, _, [arg] => do
    let wanted ← wantedText name arg scopes pos
    return some (.textTest test t wanted (.literal (.comparison .ordinal)), .bool)
  | some test, _, [arg, modeArg] => do
    let wanted ← wantedText name arg scopes pos
    let (mode, ty) ← alone modeArg scopes
    if ty ≠ .comparison then reject modeArg.pos (.argumentNotComparison name ty)
    return some (.textTest test t wanted mode, .bool)
  | _, some map, [] => .ok (some (.textMap map t, .text))
  | _, _, _ => .ok none

def sequenceMethod (t : Term) (ty elem : Ty) (name : String) (args : List Pending)
    (scopes : Scopes) (pos : Nat) : Except CompileError (Option Typed) :=
  let withTest (q : Query) (p : Pending) (result : Ty) : Except CompileError (Option Typed) := do
    return some (.query q t (← testing p elem scopes), result)
  match name, args with
  | "Count", [] => .ok (some (.count t, .int))
  | "Count", [p] => withTest .count p .int
  | "Any", [] => .ok (some (.isNonempty t, .bool))
  | "Any", [p] => withTest .any p .bool
  | "All", [p] => withTest .all p .bool
  | "Where", [p] => withTest .filter p ty
  | "First", [] => .ok (some (.first t, elem))
  | "First", [p] => withTest .first p elem
  | "Select", [p] => do
    let (body, mapped) ← onElements p elem scopes
    match mapped.toElem? with
    | some e => return some (.query .map t body, .list e)
    | none => reject pos (.notSelectable mapped)
  | "Sum", [] =>
    if elem.isNumeric then .ok (some (.sum (elem = .real) t, elem))
    else reject pos (.notSummable elem)
  | "Sum", [p] => do
    let (body, mapped) ← onElements p elem scopes
    if mapped.isNumeric then return some (.query (.sum (mapped = .real)) t body, mapped)
    else reject pos (.notSummable mapped)
  | "Contains", [p] => do
    let (wanted, wantedTy) ← alone p scopes
    match elem, elem.join? wantedTy with
    | .record _, _ | _, none => reject pos (.notSearchable elem wantedTy)
    | _, some _ => return some (.contains t wanted, .bool)
  | "GetStats", [] => .ok (if ty = .mods then some (.modStats t, .intStats) else none)
  | _, _ => .ok none

def statMethod (t : Term) (name : String) (args : List Pending) (scopes : Scopes) (pos : Nat) :
    Except CompileError (Option Typed) :=
  match name, args with
  | "ContainsKey", [p] => do
    let (key, keyTy) ← alone p scopes
    if keyTy = .text then return some (.hasStat t key, .bool) else reject pos .keyNotText
  | _, _ => .ok none

def method (target : Typed) (name : String) (args : List Pending) (scopes : Scopes) (pos : Nat) :
    Except CompileError Typed := do
  let (t, ty) := target
  let found ← match ty, ty.element? with
    | .text, _ => textMethod t name args scopes pos
    | .intStats, _ | .realStats, _ => statMethod t name args scopes pos
    | _, some elem => sequenceMethod t ty elem name args scopes pos
    | _, none => pure none
  match found with
  | some typed => return typed
  | none => reject pos (.noMethod name ty args.length)

/-! ## Helpers -/

/-- Whether an argument fits a parameter; a lambda, which has no type yet, fits a criterion. -/
def fits (param : Ty) (arg : Option Ty) : Bool :=
  match param, arg with
  | .criterion _, arg => arg.isNone
  | _, none => false
  | param, some ty => param.accepts ty

/-- How the further arguments of a helper are passed on. -/
inductive Tail where
  | absent
  | asList
  | asElements

def acceptance? (helper : Helper) (args : List (Option Ty)) : Option Tail :=
  let count := helper.params.length
  if args.length < count || !(helper.params.zip args).all (fun (p, a) => fits p a) then none
  else
    match helper.variadic, args.drop count with
    | none, [] => some .absent
    | none, _ => none
    | some e, [arg] =>
      if fits (.list e) arg then some .asList
      else if fits e.toTy arg then some .asElements
      else none
    | some e, tail => if tail.all (fits e.toTy) then some .asElements else none

/-- The first of the helpers that takes the arguments, with its place in the table. -/
def choose? (name : String) (args : List (Option Ty)) (start : Nat) :
    List Helper → Option (Nat × Helper × Tail)
  | [] => none
  | helper :: helpers =>
    let accepted := if helper.name = name then acceptance? helper args else none
    match accepted with
    | some tail => some (start, helper, tail)
    | none => choose? name args (start + 1) helpers

def fixedArgs (scopes : Scopes) : List Ty → List (Pending × Option Typed) →
    Except CompileError (List (HelperArg Term))
  | param :: params, (p, typed) :: args => do
    let arg ← match typed, param with
      | some (t, _), _ => pure (HelperArg.value t)
      | none, .criterion e => HelperArg.lambda scopes.length <$> testing p e.toTy scopes
      | none, _ => reject p.pos .strayLambda
    return arg :: (← fixedArgs scopes params args)
  | _, _ => .ok []

def helperCall (schema : Schema) (name : String) (args : List Pending) (scopes : Scopes)
    (pos : Nat) : Except CompileError Typed := do
  if !schema.helpers.any (·.name = name) then reject pos (.unknownHelper name)
  let typed ← args.mapM fun p => if p.param.isSome then pure none else some <$> p.compile scopes
  let types := typed.map (·.map Prod.snd)
  match choose? name types 0 schema.helpers with
  | none => reject pos (.noOverload name types)
  | some (index, helper, tail) =>
    let fixed ← fixedArgs scopes helper.params (args.zip typed)
    let further := (typed.drop helper.params.length).filterMap (·.map Prod.fst)
    let packed : List (HelperArg Term) := match tail with
      | .absent => []
      | .asList => further.map .value
      | .asElements => [.value (.array further)]
    return (.helper index (fixed ++ packed), helper.returns)

end Typing

/-! ## Expressions -/

namespace Expr

def name? : Expr → Option String
  | name _ s => some s
  | _ => none

mutual

def compile (schema : Schema) : Expr → Scopes → Except CompileError Typed
  | bool _ b, _ => .ok (.literal (.bool b), .bool)
  | int _ n, _ => .ok (.literal (.int (Int64.ofInt n)), .int)
  | real _ x, _ => .ok (.literal (.real x), .real)
  | text _ s, _ => .ok (.literal (.text s), .text)
  | name pos s, scopes => Typing.identifier scopes s pos
  | member target field, scopes => do
    let constant ← match target.name? with
      | some space => Typing.constant? schema scopes space field target.pos
      | none => pure none
    match constant with
    | some typed => return typed
    | none => Typing.member (← compile schema target scopes) field target.pos
  | call pos helper args, scopes =>
    let args := pendingArgs schema args
    if helper = "iif" then
      match args with
      | [condition, yes, no] => Typing.choice condition yes no scopes
      | _ => Typing.reject pos .wrongChoiceCount
    else Typing.helperCall schema helper args scopes pos
  | method target called args, scopes => do
    let t ← compile schema target scopes
    Typing.method t called (pendingArgs schema args) scopes target.pos
  | index target i, scopes => do
    let t ← compile schema target scopes
    Typing.index t (← compile schema i scopes) target.pos
  | unary pos op operand, scopes => do Typing.unary op (← compile schema operand scopes) pos
  | binary op left right, scopes => do
    let l ← compile schema left scopes
    Typing.binary op l (← compile schema right scopes) left.pos
  | logical op first rest, scopes => do
    let operands := ⟨first.pos, none, compile schema first⟩ :: pendingItems schema rest
    return (.logical op (← Typing.operands op scopes operands), .bool)
  | choice condition yes no, scopes =>
    Typing.choice ⟨condition.pos, none, compile schema condition⟩
      ⟨yes.pos, none, compile schema yes⟩ ⟨no.pos, none, compile schema no⟩ scopes
  | array pos items, scopes => Typing.array (pendingItems schema items) scopes pos

def pendingItems (schema : Schema) : List Expr → List Pending
  | [] => []
  | e :: es => ⟨e.pos, none, compile schema e⟩ :: pendingItems schema es

def pendingArgs (schema : Schema) : List (Arg Expr) → List Pending
  | [] => []
  | .plain e :: args => ⟨e.pos, none, compile schema e⟩ :: pendingArgs schema args
  | .lambda pos param body :: args =>
    ⟨pos, some param, compile schema body⟩ :: pendingArgs schema args

end

end Expr

namespace Schema

/-- The term of a rule's text, which has to be a condition. -/
def compile (schema : Schema) (text : String) : Except CompileError Term := do
  let e ← Expr.ofText text
  let (t, ty) ← e.compile schema []
  if ty = .bool then return t else throw ⟨.notBoolean ty, e.pos⟩

end Schema

end LootFilter
