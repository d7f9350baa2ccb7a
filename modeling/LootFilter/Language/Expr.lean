import LootFilter.Language.Operator

/-!
# Expressions

The syntax tree of a rule. Names and constants keep the number of characters that stand before them;
any other expression stands where its first part does.
-/

namespace LootFilter

inductive Arg (ε : Type) where
  | plain (e : ε)
  /-- A lambda, whose parameter stands at `pos`. -/
  | lambda (pos : Nat) (param : String) (body : ε)

inductive Expr where
  | bool (pos : Nat) (b : Bool)
  | int (pos : Nat) (n : Int)
  | real (pos : Nat) (x : Float)
  | text (pos : Nat) (s : String)
  | name (pos : Nat) (name : String)
  | member (target : Expr) (name : String)
  | call (pos : Nat) (name : String) (args : List (Arg Expr))
  | method (target : Expr) (name : String) (args : List (Arg Expr))
  | index (target index : Expr)
  | unary (pos : Nat) (op : UnaryOp) (operand : Expr)
  | binary (op : BinaryOp) (left right : Expr)
  /-- Any number of operands that one logical operator joins. -/
  | logical (op : LogicalOp) (first : Expr) (rest : List Expr)
  | choice (condition yes no : Expr)
  | array (pos : Nat) (items : List Expr)

namespace Expr

/-- How many characters stand before the expression. -/
def pos : Expr → Nat
  | bool pos _ | int pos _ | real pos _ | text pos _ | name pos _ | call pos _ _ | unary pos _ _
  | array pos _ => pos
  | member target _ | method target _ _ | index target _ => target.pos
  | binary _ left _ => left.pos
  | logical _ first _ => first.pos
  | choice condition _ _ => condition.pos

end Expr

def Arg.pos : Arg Expr → Nat
  | plain e => e.pos
  | lambda pos _ _ => pos

end LootFilter
