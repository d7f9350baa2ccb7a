import LootFilter.Progress
import LootFilter.Language.Expr
import LootFilter.Language.Token.Scan

/-!
# Parsing rules

An expression binds its parts, loosest first, by `?:`, `||`, `&&`, equality, order, sums, products,
prefix operators, and what follows a name or constant: members, calls and indices. The words `or`,
`and` and `not` are the logical operators, too.

Expressions nest at most 64 deep. Every parser is given how many levels are left; a bracket, a link
of a chain of binary operators, a prefix operator, a member and an index use up one each. A chain of
one logical operator uses up none, however long it is.
-/

namespace LootFilter

open CompileError (Cause)

/-- Reads an expression from the front of the tokens of a text with `stop` characters, when `levels`
more levels may be nested. -/
abbrev ExprParser := (stop levels : Nat) → (ts : List Token) →
  Except CompileError (Parsed Token Expr ts.length)

namespace ExprParser

variable {α β : Type}

/-- How deep expressions may nest. -/
def maxLevels : Nat := 64

/-! ## Single tokens -/

def nextPos (stop : Nat) : List Token → Nat
  | [] => stop
  | t :: _ => t.pos

def symbol? (s : Symbol) : (ts : List Token) → Option (Parsed Token Unit ts.length)
  | ⟨.symbol found, _⟩ :: ts => if found = s then some (.stay () ts) else none
  | _ => none

/-- Whether a token is the given word in any letter case. -/
def isKeyword (keyword : String) : Lexeme → Bool
  | .word name => name.map Char.toLower == keyword
  | _ => false

def symbolName : Symbol → String
  | .leftParen => "("
  | .rightParen => ")"
  | .leftBracket => "["
  | .rightBracket => "]"
  | .leftBrace => "\x7b"
  | .rightBrace => "\x7d"
  | .colon => ":"
  | _ => ""

def symbol (s : Symbol) (stop : Nat) (ts : List Token) :
    Except CompileError (Parsed Token Unit ts.length) :=
  match symbol? s ts with
  | some found => .ok found
  | none => .error ⟨.tokenExpected (symbolName s), nextPos stop ts⟩

def identifier (stop : Nat) : (ts : List Token) →
    Except CompileError (Parsed Token String ts.length)
  | ⟨.word name, _⟩ :: ts => .ok (.stay name ts)
  | ts => .error ⟨.identifierExpected, nextPos stop ts⟩

/-! ## Lists of expressions -/

def items (item : (ts : List Token) → Except CompileError (Parsed Token α ts.length))
    (close : Symbol) (stop : Nat) (ts : List Token) :
    Except CompileError (Parsed Token (List α) ts.length) := do
  let first ← item ts
  match symbol? .comma first.rest with
  | some comma =>
    let more ← items item close stop comma.rest
    return (first.andThen (comma.andThen more)).map (first.value :: ·)
  | none =>
    let closed ← symbol close stop first.rest
    return (first.andThen closed).map fun _ => [first.value]
termination_by ts.length
decreasing_by exact (first.andThen comma).shorter

def itemsOrNone (item : (ts : List Token) → Except CompileError (Parsed Token α ts.length))
    (close : Symbol) (stop : Nat) (ts : List Token) :
    Except CompileError (Parsed Token (List α) ts.length) :=
  match symbol? close ts with
  | some closed => .ok (closed.map fun _ => [])
  | none => items item close stop ts

section
variable (expr : ExprParser)

/-- An argument: a lambda if an arrow follows a word. -/
def argument (stop levels : Nat) : (ts : List Token) →
    Except CompileError (Parsed Token (Arg Expr) ts.length)
  | ⟨.word param, pos⟩ :: ⟨.symbol .arrow, _⟩ :: ts => do
    let body ← expr stop levels ts
    return (body.map (.lambda pos param)).widen.widen
  | ts => do return (← expr stop levels ts).map .plain

def arguments (stop levels : Nat) (ts : List Token) :
    Except CompileError (Parsed Token (List (Arg Expr)) ts.length) :=
  itemsOrNone (argument expr stop levels) .rightParen stop ts

def array (pos stop levels : Nat) (ts : List Token) :
    Except CompileError (Parsed Token Expr ts.length) := do
  let left ← symbol .leftBracket stop ts
  let right ← symbol .rightBracket stop left.rest
  let brace ← symbol .leftBrace stop right.rest
  let read ← itemsOrNone (expr stop levels) .rightBrace stop brace.rest
  return (left.andThen (right.andThen (brace.andThen read))).map (.array pos)

def primary (stop levels : Nat) : (ts : List Token) →
    Except CompileError (Parsed Token Expr ts.length)
  | [] => .error ⟨.expressionExpected, stop⟩
  | t :: ts =>
    match t.lexeme with
    | .int n => .ok (.stay (.int t.pos n) ts)
    | .real x => .ok (.stay (.real t.pos x) ts)
    | .text s => .ok (.stay (.text t.pos s) ts)
    | .symbol .leftParen => do
      let inner ← expr stop levels ts
      let closed ← symbol .rightParen stop inner.rest
      return ((inner.andThen closed).map fun _ => inner.value).widen
    | .symbol _ => .error ⟨.unexpectedToken, t.pos⟩
    | .word name =>
      if name = "true" then .ok (.stay (.bool t.pos true) ts)
      else if name = "false" then .ok (.stay (.bool t.pos false) ts)
      else if name = "new" then Parsed.widen <$> array expr t.pos stop levels ts
      else
        match symbol? .leftParen ts with
        | some opened => do
          let args ← arguments expr stop levels opened.rest
          return ((opened.andThen args).map (.call t.pos name)).widen
        | none => .ok (.stay (.name t.pos name) ts)

/-! ## Members, indices and operators -/

def suffixes (stop : Nat) : (levels : Nat) → (target : Expr) → (ts : List Token) →
    Except CompileError (Parsed Token Expr (ts.length + 1))
  | 0, _, ⟨.symbol .dot, pos⟩ :: _ => .error ⟨.nestedTooDeeply, pos⟩
  | 0, _, ⟨.symbol .leftBracket, pos⟩ :: _ => .error ⟨.nestedTooDeeply, pos⟩
  | left + 1, target, ⟨.symbol .dot, _⟩ :: ts => do
    let name ← identifier stop ts
    match symbol? .leftParen name.rest with
    | some opened =>
      let args ← arguments expr stop left opened.rest
      let more ← suffixes stop left (.method target name.value args.value) args.rest
      return (name.andThen (opened.andThen (args.andMaybe more))).widen.widen
    | none =>
      let more ← suffixes stop left (.member target name.value) name.rest
      return (name.andMaybe more).widen.widen
  | left + 1, target, ⟨.symbol .leftBracket, _⟩ :: ts => do
    let index ← expr stop left ts
    let closed ← symbol .rightBracket stop index.rest
    let more ← suffixes stop left (.index target index.value) closed.rest
    return (index.andThen (closed.andMaybe more)).widen.widen
  | _, target, ts => .ok (.stay target ts)

def postfixed (stop levels : Nat) (ts : List Token) :
    Except CompileError (Parsed Token Expr ts.length) := do
  let target ← primary expr stop levels ts
  let whole ← suffixes expr stop levels target.value target.rest
  return target.andMaybe whole

def unaryOp? (t : Token) : Option UnaryOp :=
  match t.lexeme with
  | .symbol .bang => some .not
  | .symbol .minus => some .negate
  | lexeme => if isKeyword "not" lexeme then some .not else none

/-- An operator in front of its operand. A minus in front of a number belongs to the number. -/
def applyUnary (pos : Nat) : UnaryOp → Expr → Expr
  | .negate, .int _ n => .int pos (-n)
  | .negate, .real _ x => .real pos (-x)
  | op, operand => .unary pos op operand

def prefixed (stop : Nat) : (levels : Nat) → (ts : List Token) →
    Except CompileError (Parsed Token Expr ts.length)
  | levels, [] => postfixed expr stop levels []
  | levels, t :: ts =>
    match unaryOp? t, levels with
    | none, levels => postfixed expr stop levels (t :: ts)
    | some _, 0 => .error ⟨.nestedTooDeeply, t.pos⟩
    | some op, left + 1 => do
      let operand ← prefixed stop left ts
      return (operand.map (applyUnary t.pos op)).widen

/-- What follows the operand `left` in a chain of operators that bind equally tight: the further
operators with their operands. -/
def links (operand : ExprParser) (operator : Symbol → Option BinaryOp) (stop : Nat) :
    (levels : Nat) → (left : Expr) → (ts : List Token) →
    Except CompileError (Parsed Token Expr (ts.length + 1))
  | levels, left, ⟨.symbol s, pos⟩ :: ts =>
    match operator s, levels with
    | none, _ => .ok (.stay left (⟨.symbol s, pos⟩ :: ts))
    | some _, 0 => .error ⟨.nestedTooDeeply, pos⟩
    | some op, fewer + 1 => do
      let right ← operand stop fewer ts
      let more ← links operand operator stop fewer (.binary op left right.value) right.rest
      return (right.andMaybe more).widen.widen
  | _, left, ts => .ok (.stay left ts)

def chain (operand : ExprParser) (operator : Symbol → Option BinaryOp) : ExprParser :=
  fun stop levels ts => do
    let first ← operand stop levels ts
    let whole ← links operand operator stop levels first.value first.rest
    return first.andMaybe whole

def productOp? : Symbol → Option BinaryOp
  | .star => some (.compute .mul)
  | .slash => some (.compute .div)
  | .percent => some (.compute .rem)
  | _ => none

def sumOp? : Symbol → Option BinaryOp
  | .plus => some (.compute .add)
  | .minus => some (.compute .sub)
  | _ => none

def orderOp? : Symbol → Option BinaryOp
  | .less => some (.compare .lt)
  | .lessEqual => some (.compare .le)
  | .greater => some (.compare .gt)
  | .greaterEqual => some (.compare .ge)
  | _ => none

def equalityOp? : Symbol → Option BinaryOp
  | .equal => some (.compare .eq)
  | .notEqual => some (.compare .ne)
  | _ => none

def comparison : ExprParser :=
  chain (chain (chain (chain (prefixed expr) productOp?) sumOp?) orderOp?) equalityOp?

/-! ## Logic and choices -/

def isLogical (op : LogicalOp) (t : Token) : Bool :=
  match op, t.lexeme with
  | .and, .symbol s => s == .ampersands
  | .or, .symbol s => s == .bars
  | .and, .word name => isKeyword "and" (.word name)
  | .or, .word name => isKeyword "or" (.word name)
  | _, _ => false

def operands (operand : (ts : List Token) → Except CompileError (Parsed Token Expr ts.length))
    (op : LogicalOp) : (ts : List Token) →
    Except CompileError (Parsed Token (List Expr) (ts.length + 1))
  | [] => .ok (.stay [] [])
  | t :: ts =>
    if isLogical op t then do
      let head ← operand ts
      let tail ← operands operand op head.rest
      return ((head.andMaybe tail).map (head.value :: ·)).widen.widen
    else .ok (.stay [] (t :: ts))
termination_by ts => ts.length
decreasing_by exact head.widen.shorter

/-- The expression that a logical operator makes of its operands; it takes two to need one. -/
def joinOperands (op : LogicalOp) (first : Expr) : List Expr → Expr
  | [] => first
  | second :: rest => .logical op first (second :: rest)

def logical (op : LogicalOp) (operand : ExprParser) : ExprParser := fun stop levels ts => do
  let first ← operand stop levels ts
  let rest ← operands (operand stop levels) op first.rest
  return (first.andMaybe rest).map (joinOperands op first.value)

def choice : ExprParser := fun stop levels ts => do
  let condition ← logical .or (logical .and (comparison expr)) stop levels ts
  match symbol? .question condition.rest with
  | some question =>
    let yes ← expr stop levels question.rest
    let colon ← symbol .colon stop yes.rest
    let no ← expr stop levels colon.rest
    let branches := question.andThen (yes.andThen (colon.andThen no))
    return (condition.andThen branches).map (.choice condition.value yes.value)
  | none => return condition

end

/-- An expression that stands by itself. Every expression inside it is given fewer levels, so that
`depth` parsers inside each other are enough for `depth` levels. -/
def expression : (depth : Nat) → ExprParser
  | 0 => fun stop _ ts => .error ⟨.nestedTooDeeply, nextPos stop ts⟩
  | depth + 1 => fun stop levels ts =>
    match levels with
    | 0 => .error ⟨.nestedTooDeeply, nextPos stop ts⟩
    | left + 1 => choice (expression depth) stop left ts

end ExprParser

namespace Expr

/-- The expression that tokens of a text with `stop` characters make. -/
def ofTokens (stop : Nat) (ts : List Token) : Except CompileError Expr := do
  let read ← ExprParser.expression ExprParser.maxLevels stop ExprParser.maxLevels ts
  match read.rest with
  | [] => return read.value
  | t :: _ => throw ⟨.unexpectedToken, t.pos⟩

def ofText (text : String) : Except CompileError Expr := do
  let ts ← Token.ofText text
  ofTokens text.toList.length ts

end Expr

end LootFilter
