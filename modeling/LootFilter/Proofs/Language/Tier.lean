import LootFilter.Language.Expr.Parse

/-!
# Tiers

How tightly an expression binds its parts. Each tier has a parser, which reads the operands of its
own construct at the next tighter tier.
-/

namespace LootFilter

/-- Binary operators that bind equally tight. -/
inductive Chain where
  | equality
  | order
  | sum
  | product
deriving DecidableEq

def Chain.operator? : Chain → Symbol → Option BinaryOp
  | equality => ExprParser.equalityOp?
  | order => ExprParser.orderOp?
  | sum => ExprParser.sumOp?
  | product => ExprParser.productOp?

inductive Tier where
  /-- An expression that stands by itself, which is one level deeper than what it stands in. -/
  | whole
  | choice
  | logical (op : LogicalOp)
  | chain (c : Chain)
  | prefixed
  | postfixed
  | primary
deriving DecidableEq

namespace Tier

def tighter : Tier → Tier
  | whole => choice
  | choice => logical .or
  | logical .or => logical .and
  | logical .and => chain .equality
  | chain .equality => chain .order
  | chain .order => chain .sum
  | chain .sum => chain .product
  | chain .product => prefixed
  | prefixed => postfixed
  | postfixed | primary => primary

def parser (expr : ExprParser) : Tier → ExprParser
  | whole => expr
  | choice => ExprParser.choice expr
  | logical .or =>
    ExprParser.logical .or (ExprParser.logical .and (ExprParser.comparison expr))
  | logical .and => ExprParser.logical .and (ExprParser.comparison expr)
  | chain .equality => ExprParser.comparison expr
  | chain .order =>
    ExprParser.chain (ExprParser.chain (ExprParser.chain (ExprParser.prefixed expr)
      ExprParser.productOp?) ExprParser.sumOp?) ExprParser.orderOp?
  | chain .sum =>
    ExprParser.chain (ExprParser.chain (ExprParser.prefixed expr) ExprParser.productOp?)
      ExprParser.sumOp?
  | chain .product => ExprParser.chain (ExprParser.prefixed expr) ExprParser.productOp?
  | prefixed => ExprParser.prefixed expr
  | postfixed => ExprParser.postfixed expr
  | primary => ExprParser.primary expr

theorem parser_chain (expr : ExprParser) (c : Chain) :
    (chain c).parser expr = ExprParser.chain ((chain c).tighter.parser expr) c.operator? := by
  cases c <;> rfl

theorem parser_logical (expr : ExprParser) (op : LogicalOp) :
    (logical op).parser expr = ExprParser.logical op ((logical op).tighter.parser expr) := by
  cases op <;> rfl

end Tier

end LootFilter
