import LootFilter.Decimal.Binary64
import LootFilter.Language.Typing
import LootFilter.Text.Blank

/-!
# Evaluating terms

A term is evaluated for an item, with the values of the parameters around it on a stack. Operands
are evaluated from the left, logical operands and choices only as far as they are needed, and
sequences are passed through from the front. The first fault stops everything.
-/

namespace LootFilter

/-- The values of the parameters around a term, that of the outermost lambda first. -/
abbrev Locals := Array Value

/-- An evaluation with a stack of parameters. What it did to the stack before a fault stays. -/
abbrev Machine := ExceptT Fault (StateT Locals SessionM)

namespace Machine

variable {α : Type}

def ask (e : EvalM α) : Machine α := ExceptT.mk (StateT.lift e.run)

/-- Evaluates with one value more on the stack and takes it off again, also after a fault. -/
def withLocal (v : Value) (e : Machine α) : Machine α := ExceptT.mk do
  modify fun locals => locals.push v
  let answer ← e.run
  modify fun locals => locals.pop
  return answer

def within (e : Machine α) (locals : Locals) : EvalM α := ExceptT.mk (e.run.run' locals)

end Machine

namespace Eval

variable {α β : Type} {m : Type → Type} [Monad m] [MonadExcept Fault m]

/-! ## Scalars -/

def pureOf (answer : Except Fault α) : m α :=
  match answer with
  | .ok a => pure a
  | .error fault => throw fault

def wholeArithmetic (a : Arithmetic) (x y : Int64) : Except Fault Int64 :=
  match a with
  | .add => .ok (x + y)
  | .sub => .ok (x - y)
  | .mul => .ok (x * y)
  | .div => if y = 0 then .error .divideByZero else .ok (x / y)
  | .rem => if y = 0 then .error .divideByZero else .ok (x % y)

def realArithmetic (a : Arithmetic) (x y : Float) : Float :=
  match a with
  | .add => x + y
  | .sub => x - y
  | .mul => x * y
  | .div => x / y
  | .rem => Decimal.remainder x y

def compute (a : Arithmetic) (isReal : Bool) (left right : Value) : Except Fault Value := do
  if isReal then
    let x ← left.asReal
    let y ← right.asReal
    return .real (realArithmetic a x y)
  else
    let x ← left.asInt
    let y ← right.asInt
    return .int (← wholeArithmetic a x y)

def holds (c : Comparison) (order : Ordering) : Bool :=
  match c with
  | .eq => order == .eq
  | .ne => order != .eq
  | .lt => order == .lt
  | .le => order != .gt
  | .gt => order == .gt
  | .ge => order != .lt

/-- Comparison of doubles. With NaN no comparison holds but that of being different. -/
def holdsOfReals (c : Comparison) (x y : Float) : Bool :=
  match c with
  | .eq => x == y
  | .ne => x != y
  | .lt => decide (x < y)
  | .le => decide (x ≤ y)
  | .gt => decide (y < x)
  | .ge => decide (y ≤ x)

def compare (c : Comparison) (kind : Scalar) (left right : Value) : Except Fault Value := do
  match kind with
  | .int =>
    let x ← left.asInt
    let y ← right.asInt
    return .bool (holds c (compareOfLessAndEq x y))
  | .real =>
    let x ← left.asReal
    let y ← right.asReal
    return .bool (holdsOfReals c x y)
  | .text =>
    let x ← left.asText
    let y ← right.asText
    return .bool (holds c (compareOfLessAndEq x y))
  | .bool =>
    let x ← left.asBool
    let y ← right.asBool
    return .bool (holds c (Ord.compare x y))

def negate (isReal : Bool) (v : Value) : Except Fault Value := do
  if isReal then return .real (-(← v.asReal)) else return .int (-(← v.asInt))

/-! ## Texts -/

def asMode : Value → Except Fault Text.CaseMode
  | .comparison mode => .ok mode
  | v => .error (.typeMismatch (.notAComparison v.kind))

def testText (test : TextTest) (mode : Text.CaseMode) (s wanted : String) : Bool :=
  match test with
  | .contains => mode.contains s wanted
  | .startsWith => mode.startsWith s wanted
  | .endsWith => mode.endsWith s wanted
  | .equals => mode.equals s wanted

def mapText : TextMap → String → String
  | .lower => Text.lower
  | .upper => Text.upper
  | .trim => Text.trim

/-! ## Stat tables -/

def stat (table : Value) (key : String) : Except Fault Value :=
  match table with
  | .intStats t => .ok (.int (t.get key))
  | .realStats t => .ok (.real (t.get key))
  | v => .error (.typeMismatch (.notAStatTable v.kind))

def statCount : Value → Except Fault Value
  | .intStats t => .ok (.int (.ofNat t.size))
  | .realStats t => .ok (.int (.ofNat t.size))
  | v => .error (.typeMismatch (.notAStatTable v.kind))

def hasStat (table : Value) (key : String) : Except Fault Value :=
  match table with
  | .intStats t => .ok (.bool (t.contains key))
  | .realStats t => .ok (.bool (t.contains key))
  | v => .error (.typeMismatch (.notAStatTable v.kind))

/-! ## Records and sequences -/

def field (v : Value) (index : Nat) : EvalM Value := do
  let r ← pureOf v.asRecord
  match r.field? index with
  | some read => read
  | none => throw (.typeMismatch (.missingField r.kind.name index))

def nth (vs : List Value) (n : Int64) : Except Fault Value :=
  if n < 0 then .error (.indexOutOfRange n vs.length)
  else
    match vs[n.toNatClampNeg]? with
    | some v => .ok v
    | none => .error (.indexOutOfRange n vs.length)

def head : List Value → Except Fault Value
  | [] => .error .emptySequence
  | v :: _ => .ok v

def keep (test : α → m Bool) : List α → m (List α)
  | [] => pure []
  | a :: as => do
    if ← test a then
      let kept ← keep test as
      return a :: kept
    else keep test as

def firstThat (test : α → m Bool) : List α → m α
  | [] => throw .emptySequence
  | a :: as => do if ← test a then return a else firstThat test as

def sumOf (isReal : Bool) (f : Value → m Value) (vs : List Value) : m Value :=
  if isReal then
    .real <$> vs.foldlM (fun sum v => do return sum + (← pureOf (← f v).asReal)) 0.0
  else
    .int <$> vs.foldlM (fun sum v => do return sum + (← pureOf (← f v).asInt)) 0

def test (f : Value → m Value) (v : Value) : m Bool := do pureOf (← f v).asBool

def queryElements (q : Query) (f : Value → m Value) (vs : List Value) : m Value :=
  match q with
  | .count => do return .int (.ofNat (← keep (test f) vs).length)
  | .any => do return .bool (← vs.anyM (test f))
  | .all => do return .bool (← vs.allM (test f))
  | .filter => do return .list (← keep (test f) vs)
  | .first => firstThat (test f) vs
  | .map => do return .list (← vs.mapM f)
  | .sum isReal => sumOf isReal f vs

/-- What a query with the lambda `f` finds in a sequence. Modifiers that are kept make up a
collection again. -/
def query (q : Query) (f : Value → m Value) (target : Value) : m Value :=
  match q, target with
  | .filter, .mods mods => do
    let kept ← keep (fun placed => test f (.record (.modifier placed))) mods.toList
    return .mods (.picked kept)
  | q, target => do queryElements q f (← pureOf target.elements)

def callHelper (helpers : List Helper) (root : Item) (index : Nat) (args : List Argument) :
    EvalM Value :=
  match helpers[index]? with
  | some helper => helper.call root args
  | none => throw (.typeMismatch (.unknownHelper index))

end Eval

def Literal.toValue : Literal → Value
  | bool b => .bool b
  | int n => .int n
  | real x => .real x
  | text s => .text s
  | comparison mode => .comparison mode

namespace Term

open Eval (pureOf)
open Machine (ask withLocal)

variable (helpers : List Helper) (root : Item)

mutual

def run : Term → Machine Value
  | literal l => pure l.toValue
  | .root => pure (.record (.item root))
  | slot n => do
    let locals : Locals ← get
    match locals[n]? with
    | some v => pure v
    | none => throw (.typeMismatch (.unboundLocal n))
  | field target place => do ask (Eval.field (← run target) place)
  | toReal t => do return .real (← pureOf (← run t).asReal)
  | not t => do return .bool (!(← pureOf (← run t).asBool))
  | negate isReal t => do pureOf (Eval.negate isReal (← run t))
  | logical op operands => do return .bool (← runLogical op operands)
  | compare c kind left right => do
    let l ← run left
    let r ← run right
    pureOf (Eval.compare c kind l r)
  | compute a isReal left right => do
    let l ← run left
    let r ← run right
    pureOf (Eval.compute a isReal l r)
  | join left right => do
    let l ← run left
    let r ← run right
    let s ← pureOf l.print
    return .text (s ++ (← pureOf r.print))
  | choice condition yes no => do
    if ← pureOf (← run condition).asBool then run yes else run no
  | array items => do return .list (← runAll items)
  | index target i => do
    let vs ← pureOf (← run target).elements
    pureOf (Eval.nth vs (← pureOf (← run i).asInt))
  | textLength t => do return .int (.ofNat (← pureOf (← run t).asText).length)
  | textTest test target wanted mode => do
    let s ← run target
    let w ← run wanted
    let mode ← pureOf (Eval.asMode (← run mode))
    let s ← pureOf s.asText
    return .bool (Eval.testText test mode s (← pureOf w.asText))
  | textMap map t => do return .text (Eval.mapText map (← pureOf (← run t).asText))
  | count t => do return .int (.ofNat (← pureOf (← run t).elements).length)
  | isNonempty t => do return .bool (!(← pureOf (← run t).elements).isEmpty)
  | first t => do pureOf (Eval.head (← pureOf (← run t).elements))
  | sum isReal t => do
    let vs ← pureOf (← run t).elements
    Eval.sumOf isReal pure vs
  | contains t wanted => do
    let vs ← pureOf (← run t).elements
    let w ← run wanted
    return .bool (vs.any (·.equals w))
  | query q t body => do Eval.query q (fun v => withLocal v (run body)) (← run t)
  | modStats t => do
    let mods ← pureOf (← run t).asMods
    return .intStats (← ask (Session.sumMods mods))
  | stat table key => do
    let t ← run table
    pureOf (Eval.stat t (← pureOf (← run key).asText))
  | statCount table => do pureOf (Eval.statCount (← run table))
  | hasStat table key => do
    let t ← run table
    pureOf (Eval.hasStat t (← pureOf (← run key).asText))
  | helper i args => do ask (Eval.callHelper helpers root i (← runArgs args))

def runAll : List Term → Machine (List Value)
  | [] => pure []
  | t :: ts => do
    let v ← run t
    return v :: (← runAll ts)

def runLogical (op : LogicalOp) : List Term → Machine Bool
  | [] => pure op.neutral
  | t :: ts => do
    let b ← pureOf (← run t).asBool
    if b = op.neutral then runLogical op ts else return b

/-- The arguments of a helper. A lambda remembers the parameters around it, and is evaluated on a
stack of its own. -/
def runArgs : List (HelperArg Term) → Machine (List Argument)
  | [] => pure []
  | .value t :: args => do
    let v ← run t
    return .value v :: (← runArgs args)
  | .lambda height body :: args => do
    let locals : Locals ← get
    let captured := locals.take height
    let test := Eval.test fun v => (run body).within (captured.push v)
    return .lambda test :: (← runArgs args)

end

end Term

namespace Schema

def evaluate (schema : Schema) (condition : Term) (it : Item) : EvalM Bool := do
  Eval.pureOf (← (condition.run schema.helpers it).within #[]).asBool

end Schema

end LootFilter
