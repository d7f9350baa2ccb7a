/-!
# Operators

The operators of rule expressions and the symbols that messages name them by.
-/

namespace LootFilter

inductive UnaryOp where
  | not
  | negate
deriving DecidableEq, Repr

inductive LogicalOp where
  | and
  | or
deriving DecidableEq, Repr

inductive Comparison where
  | eq
  | ne
  | lt
  | le
  | gt
  | ge
deriving DecidableEq, Repr

inductive Arithmetic where
  | add
  | sub
  | mul
  | div
  | rem
deriving DecidableEq, Repr

inductive BinaryOp where
  | compare (c : Comparison)
  | compute (a : Arithmetic)
deriving DecidableEq, Repr

def UnaryOp.symbol : UnaryOp → String
  | not => "!"
  | negate => "-"

def LogicalOp.symbol : LogicalOp → String
  | and => "&&"
  | or => "||"

/-- What the operator makes of no operands. An operand that differs from it decides. -/
def LogicalOp.neutral : LogicalOp → Bool
  | and => true
  | or => false

def BinaryOp.symbol : BinaryOp → String
  | compare .eq => "=="
  | compare .ne => "!="
  | compare .lt => "<"
  | compare .le => "<="
  | compare .gt => ">"
  | compare .ge => ">="
  | compute .add => "+"
  | compute .sub => "-"
  | compute .mul => "*"
  | compute .div => "/"
  | compute .rem => "%"

/-- Whether the comparison is about order, not only about being the same. -/
def Comparison.isOrdering : Comparison → Bool
  | eq | ne => false
  | lt | le | gt | ge => true

end LootFilter
