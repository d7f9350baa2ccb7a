/-!
# Tokens

The pieces that the text of a rule consists of.
-/

namespace LootFilter

inductive Symbol where
  | leftParen
  | rightParen
  | leftBracket
  | rightBracket
  | leftBrace
  | rightBrace
  | comma
  | dot
  | question
  | colon
  | arrow
  | bang
  | ampersands
  | bars
  | equal
  | notEqual
  | less
  | lessEqual
  | greater
  | greaterEqual
  | plus
  | minus
  | star
  | slash
  | percent
deriving DecidableEq, Repr

inductive Lexeme where
  | int (n : Nat)
  | real (x : Float)
  | text (s : String)
  | word (name : String)
  | symbol (s : Symbol)

/-- A lexeme and the number of characters that stand before it in the text. -/
structure Token where
  lexeme : Lexeme
  pos : Nat

end LootFilter
