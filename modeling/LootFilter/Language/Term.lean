import LootFilter.Language.Operator
import LootFilter.Language.Type
import LootFilter.Text.Search

/-!
# Terms

A compiled expression. Parameters of lambdas are known by their places on the stack of parameters,
fields and helpers by their places in the tables, and every operation knows the kind of its
operands.
-/

namespace LootFilter

inductive Literal where
  | bool (b : Bool)
  | int (n : Int64)
  | real (x : Float)
  | text (s : String)
  | comparison (mode : Text.CaseMode)

inductive TextTest where
  | contains
  | startsWith
  | endsWith
  | equals
deriving DecidableEq, Repr

inductive TextMap where
  | lower
  | upper
  | trim
deriving DecidableEq, Repr

inductive Query where
  | count
  | any
  | all
  | filter
  | first
  | map
  | sum (isReal : Bool)
deriving DecidableEq, Repr

inductive HelperArg (τ : Type) where
  | value (t : τ)
  /-- A lambda with `height` lambdas around it. -/
  | lambda (height : Nat) (body : τ)

inductive Term where
  | literal (l : Literal)
  | root
  /-- A parameter; that of the outermost lambda is number zero. -/
  | slot (n : Nat)
  | field (target : Term) (index : Nat)
  | toReal (t : Term)
  | not (t : Term)
  | negate (isReal : Bool) (t : Term)
  | logical (op : LogicalOp) (operands : List Term)
  /-- Both operands are read as scalars of one kind. -/
  | compare (c : Comparison) (kind : Scalar) (left right : Term)
  | compute (a : Arithmetic) (isReal : Bool) (left right : Term)
  | join (left right : Term)
  | choice (condition yes no : Term)
  | array (items : List Term)
  | index (target index : Term)
  | textLength (t : Term)
  | textTest (test : TextTest) (target wanted mode : Term)
  | textMap (map : TextMap) (t : Term)
  | count (t : Term)
  | isNonempty (t : Term)
  | first (t : Term)
  | sum (isReal : Bool) (t : Term)
  | contains (t wanted : Term)
  | query (q : Query) (t body : Term)
  | modStats (t : Term)
  | stat (table key : Term)
  | statCount (table : Term)
  | hasStat (table key : Term)
  | helper (index : Nat) (args : List (HelperArg Term))

end LootFilter
