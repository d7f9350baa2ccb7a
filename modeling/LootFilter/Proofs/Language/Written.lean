import LootFilter.Decimal.Binary64
import LootFilter.Proofs.Language.Rules
import LootFilter.Proofs.Language.Tier

/-!
# How expressions are written

The lexemes of an expression, with brackets only where the tier of a part asks for them, and the
levels that reading them takes.
-/

namespace LootFilter

/-! ## Tiers -/

namespace Tier

/-- Higher ranks bind tighter. -/
def rank : Tier → Nat
  | whole => 0
  | choice => 1
  | logical .or => 2
  | logical .and => 3
  | chain .equality => 4
  | chain .order => 5
  | chain .sum => 6
  | chain .product => 7
  | prefixed => 8
  | postfixed => 9
  | primary => 10

def ofRank : Nat → Tier
  | 0 => whole
  | 1 => choice
  | 2 => logical .or
  | 3 => logical .and
  | 4 => chain .equality
  | 5 => chain .order
  | 6 => chain .sum
  | 7 => chain .product
  | 8 => prefixed
  | 9 => postfixed
  | _ => primary

theorem ofRank_rank (t : Tier) : ofRank t.rank = t := by
  cases t with
  | logical op => cases op <;> rfl
  | chain c => cases c <;> rfl
  | whole | choice | prefixed | postfixed | primary => rfl

theorem rank_injective {t t' : Tier} (h : t.rank = t'.rank) : t = t' := by
  rw [← ofRank_rank t, h, ofRank_rank]

theorem rank_tighter {t : Tier} (h : t ≠ .primary) : t.tighter.rank = t.rank + 1 := by
  cases t with
  | logical op => cases op <;> rfl
  | chain c => cases c <;> rfl
  | whole | choice | prefixed | postfixed => rfl
  | primary => exact absurd rfl h

theorem tighter_ne_whole (t : Tier) : t.tighter ≠ .whole := by
  cases t with
  | logical op => cases op <;> exact nofun
  | chain c => cases c <;> exact nofun
  | whole | choice | prefixed | postfixed | primary => exact nofun

end Tier

def BinaryOp.chain : BinaryOp → Chain
  | compare .eq | compare .ne => .equality
  | compare .lt | compare .le | compare .gt | compare .ge => .order
  | compute .add | compute .sub => .sum
  | compute .mul | compute .div | compute .rem => .product

def BinaryOp.written : BinaryOp → Symbol
  | compare .eq => .equal
  | compare .ne => .notEqual
  | compare .lt => .less
  | compare .le => .lessEqual
  | compare .gt => .greater
  | compare .ge => .greaterEqual
  | compute .add => .plus
  | compute .sub => .minus
  | compute .mul => .star
  | compute .div => .slash
  | compute .rem => .percent

theorem BinaryOp.written_ne_arrow (op : BinaryOp) : op.written ≠ .arrow := by
  cases op with
  | compare c => cases c <;> exact nofun
  | compute a => cases a <;> exact nofun

def UnaryOp.written : UnaryOp → Symbol
  | not => .bang
  | negate => .minus

def LogicalOp.written : LogicalOp → Symbol
  | and => .ampersands
  | or => .bars

/-- The word that may be written in place of a symbol. -/
def Symbol.keyword? : Symbol → Option String
  | ampersands => some "and"
  | bars => some "or"
  | bang => some "not"
  | _ => none

/-- Whether a token is one of the ways to write a lexeme. -/
def Token.Writes (token : Token) : Lexeme → Prop
  | .symbol s => token.lexeme = .symbol s ∨
      ∃ keyword ∈ s.keyword?, ExprParser.isKeyword keyword token.lexeme
  | lexeme => token.lexeme = lexeme

def Token.Write (tokens : List Token) (lexemes : List Lexeme) : Prop :=
  List.Forall₂ Token.Writes tokens lexemes

namespace Expr

/-- The loosest tier at which the expression is read without brackets. -/
def tier : Expr → Tier
  | int _ n => if n < 0 then .prefixed else .primary
  | real _ x => if Decimal.isNegative x then .prefixed else .primary
  | bool .. | text .. | name .. | call .. | array .. => .primary
  | member .. | method .. | index .. => .postfixed
  | unary .. => .prefixed
  | binary op _ _ => .chain op.chain
  | logical op _ _ => .logical op
  | choice .. => .choice

/-! ## Lexemes -/

def within (e : Expr) (t : Tier) (lexemes : List Lexeme) : List Lexeme :=
  if e.tier.rank < t.rank then .symbol .leftParen :: lexemes ++ [.symbol .rightParen] else lexemes

def separated (s : Symbol) : List (List Lexeme) → List Lexeme
  | [] => []
  | first :: rest => first ++ rest.flatMap (.symbol s :: ·)

mutual

def lexemes : Expr → List Lexeme
  | bool _ b => [.word (if b then "true" else "false")]
  | int _ n => if n < 0 then [.symbol .minus, .int n.natAbs] else [.int n.natAbs]
  | real _ x => if Decimal.isNegative x then [.symbol .minus, .real (-x)] else [.real x]
  | text _ s => [.text s]
  | name _ s => [.word s]
  | member target s => within target .postfixed (lexemes target) ++ [.symbol .dot, .word s]
  | call _ s args =>
    .word s :: .symbol .leftParen :: separated .comma (argLexemes args) ++ [.symbol .rightParen]
  | method target s args =>
    within target .postfixed (lexemes target) ++ .symbol .dot :: .word s :: .symbol .leftParen ::
      separated .comma (argLexemes args) ++ [.symbol .rightParen]
  | .index target i =>
    within target .postfixed (lexemes target) ++ .symbol .leftBracket :: lexemes i ++
      [.symbol .rightBracket]
  | unary _ op operand => .symbol op.written :: within operand .prefixed (lexemes operand)
  | binary op l r =>
    within l (.chain op.chain) (lexemes l) ++ .symbol op.written ::
      within r (Tier.chain op.chain).tighter (lexemes r)
  | logical op first rest =>
    separated op.written (within first (Tier.logical op).tighter (lexemes first) ::
      itemLexemes rest (Tier.logical op).tighter)
  | choice condition yes no =>
    within condition (.logical .or) (lexemes condition) ++ .symbol .question :: lexemes yes ++
      .symbol .colon :: lexemes no
  | array _ items =>
    .word "new" :: .symbol .leftBracket :: .symbol .rightBracket :: .symbol .leftBrace ::
      separated .comma (itemLexemes items .whole) ++ [.symbol .rightBrace]

def argLexemes : List (Arg Expr) → List (List Lexeme)
  | [] => []
  | .plain e :: args => lexemes e :: argLexemes args
  | .lambda _ param body :: args =>
    (.word param :: .symbol .arrow :: lexemes body) :: argLexemes args

def itemLexemes : List Expr → Tier → List (List Lexeme)
  | [], _ => []
  | e :: es, t => within e t (lexemes e) :: itemLexemes es t

end

/-- The lexemes of the expression at a place of tier `t`. -/
def lexemesAt (e : Expr) (t : Tier) : List Lexeme := e.within t e.lexemes

/-! ## Levels -/

/-- How many operators or members of its tier the expression has outside brackets. -/
def links : Expr → Nat
  | member target _ | method target _ _ | index target _ =>
    (if target.tier = .postfixed then links target else 0) + 1
  | binary op l _ => (if l.tier = .chain op.chain then links l else 0) + 1
  | _ => 0

def linksAt (e : Expr) (t : Tier) : Nat := if e.tier = t then e.links else 0

def deepen (e : Expr) (t : Tier) (levels : Nat) : Nat :=
  if t = .whole ∨ e.tier.rank < t.rank then levels + 1 else levels

mutual

/-- How many levels reading the expression takes, below that of the place where it stands. -/
def levels : Expr → Nat
  | bool .. | text .. | name .. => 0
  | int _ n => if n < 0 then 1 else 0
  | real _ x => if Decimal.isNegative x then 1 else 0
  | member target _ =>
    max (deepen target .postfixed (levels target)) (linksAt target .postfixed + 1)
  | call _ _ args => argLevels args
  | method target _ args =>
    max (deepen target .postfixed (levels target))
      (linksAt target .postfixed + 1 + argLevels args)
  | .index target i =>
    max (deepen target .postfixed (levels target))
      (linksAt target .postfixed + 1 + (levels i + 1))
  | unary _ _ operand => deepen operand .prefixed (levels operand) + 1
  | binary op l r =>
    max (deepen l (.chain op.chain) (levels l))
      (linksAt l (.chain op.chain) + 1 + deepen r (Tier.chain op.chain).tighter (levels r))
  | logical op first rest =>
    max (deepen first (Tier.logical op).tighter (levels first))
      (itemLevels rest (Tier.logical op).tighter)
  | choice condition yes no =>
    max (deepen condition (.logical .or) (levels condition)) (max (levels yes + 1) (levels no + 1))
  | array _ items => itemLevels items .whole

def argLevels : List (Arg Expr) → Nat
  | [] => 0
  | .plain e :: args => max (levels e + 1) (argLevels args)
  | .lambda _ _ body :: args => max (levels body + 1) (argLevels args)

def itemLevels : List Expr → Tier → Nat
  | [], _ => 0
  | e :: es, t => max (deepen e t (levels e)) (itemLevels es t)

end

def levelsAt (e : Expr) (t : Tier) : Nat := e.deepen t e.levels

/-! ## Positions -/

mutual

/-- The expression without its positions. -/
def unplaced : Expr → Expr
  | bool _ b => .bool 0 b
  | int _ n => .int 0 n
  | real _ x => .real 0 x
  | text _ s => .text 0 s
  | name _ s => .name 0 s
  | member target s => .member (unplaced target) s
  | call _ s args => .call 0 s (unplacedArgs args)
  | method target s args => .method (unplaced target) s (unplacedArgs args)
  | .index target i => .index (unplaced target) (unplaced i)
  | unary _ op operand => .unary 0 op (unplaced operand)
  | binary op l r => .binary op (unplaced l) (unplaced r)
  | logical op first rest => .logical op (unplaced first) (unplacedItems rest)
  | choice condition yes no => .choice (unplaced condition) (unplaced yes) (unplaced no)
  | array _ items => .array 0 (unplacedItems items)

def unplacedArgs : List (Arg Expr) → List (Arg Expr)
  | [] => []
  | .plain e :: args => .plain (unplaced e) :: unplacedArgs args
  | .lambda _ param body :: args => .lambda 0 param (unplaced body) :: unplacedArgs args

def unplacedItems : List Expr → List Expr
  | [] => []
  | e :: es => unplaced e :: unplacedItems es

end

/-! ## What can be written -/

/-- Whether the expression itself, apart from its parts, is one that the grammar has a form for: a
name that is no constant, array or operator, a minus that is not part of a number, and at least two
operands. -/
def IsWritable : Expr → Prop
  | name _ s | call _ s _ =>
    s ∉ ["true", "false", "new"] ∧ ¬ ExprParser.isKeyword "not" (.word s)
  | unary _ .negate (int ..) | unary _ .negate (real ..) => False
  | logical _ _ rest => rest ≠ []
  | _ => True

inductive IsIn : Expr → Expr → Prop
  | self (e : Expr) : IsIn e e
  | part {e part whole : Expr} : part ∈ whole.parts → IsIn e part → IsIn e whole

def AllWritable (e : Expr) : Prop := ∀ node : Expr, node.IsIn e → node.IsWritable

theorem AllWritable.self {e : Expr} (h : e.AllWritable) : e.IsWritable := h e (.self e)

theorem AllWritable.part {e part : Expr} (h : e.AllWritable) (mem : part ∈ e.parts) :
    part.AllWritable :=
  fun node inside => h node (.part mem inside)

theorem AllWritable.of_parts {e : Expr} (h : e.IsWritable)
    (parts : ∀ part ∈ e.parts, part.AllWritable) : e.AllWritable := by
  rintro node (_ | ⟨mem, inside⟩)
  · exact h
  · exact parts _ mem node inside

end Expr

/-! ## Lists of parts -/

def Arg.lexemes : Arg Expr → List Lexeme
  | plain e => e.lexemes
  | lambda _ param body => .word param :: .symbol .arrow :: body.lexemes

def Arg.unplaced : Arg Expr → Arg Expr
  | plain e => .plain e.unplaced
  | lambda _ param body => .lambda 0 param body.unplaced

namespace Expr

theorem argLexemes_eq_map (args : List (Arg Expr)) : argLexemes args = args.map Arg.lexemes := by
  induction args with
  | nil => rfl
  | cons arg args ih => cases arg <;> simp only [argLexemes, ih, List.map_cons, Arg.lexemes]

theorem itemLexemes_eq_map (items : List Expr) (t : Tier) :
    itemLexemes items t = items.map (lexemesAt · t) := by
  induction items with
  | nil => rfl
  | cons e es ih => simp only [itemLexemes, ih, List.map_cons, lexemesAt]

theorem unplacedArgs_eq_map (args : List (Arg Expr)) :
    unplacedArgs args = args.map Arg.unplaced := by
  induction args with
  | nil => rfl
  | cons arg args ih => cases arg <;> simp only [unplacedArgs, ih, List.map_cons, Arg.unplaced]

theorem unplacedItems_eq_map (items : List Expr) : unplacedItems items = items.map unplaced := by
  induction items with
  | nil => rfl
  | cons e es ih => simp only [unplacedItems, ih, List.map_cons]

theorem argLevels_le_iff {args : List (Arg Expr)} {n : Nat} :
    argLevels args ≤ n ↔ ∀ arg ∈ args, arg.body.levelsAt .whole ≤ n := by
  induction args with
  | nil => exact ⟨fun _ => List.forall_mem_nil _, fun _ => Nat.zero_le n⟩
  | cons arg args ih =>
    rw [List.forall_mem_cons, ← ih]
    cases arg <;> exact Nat.max_le

theorem itemLevels_le_iff {items : List Expr} {t : Tier} {n : Nat} :
    itemLevels items t ≤ n ↔ ∀ e ∈ items, e.levelsAt t ≤ n := by
  induction items with
  | nil => exact ⟨fun _ => List.forall_mem_nil _, fun _ => Nat.zero_le n⟩
  | cons e es ih =>
    rw [List.forall_mem_cons, ← ih]
    exact Nat.max_le

/-! ## Places -/

section places

variable {e : Expr} {t : Tier}

theorem lexemesAt_of_le (h : t.rank ≤ e.tier.rank) : e.lexemesAt t = e.lexemes :=
  if_neg (Nat.not_lt.2 h)

theorem lexemesAt_of_lt (h : e.tier.rank < t.rank) :
    e.lexemesAt t = .symbol .leftParen :: e.lexemes ++ [.symbol .rightParen] :=
  if_pos h

theorem lexemesAt_whole : e.lexemesAt .whole = e.lexemes := lexemesAt_of_le (Nat.zero_le _)

theorem levelsAt_of_le (h : t.rank ≤ e.tier.rank) (inner : t ≠ .whole) :
    e.levelsAt t = e.levels :=
  if_neg (not_or.2 ⟨inner, Nat.not_lt.2 h⟩)

theorem levelsAt_of_lt (h : e.tier.rank < t.rank) : e.levelsAt t = e.levels + 1 :=
  if_pos (.inr h)

theorem levelsAt_whole : e.levelsAt .whole = e.levels + 1 := by
  rw [levelsAt, deepen, if_pos (Or.inl rfl)]

theorem linksAt_of_ne (h : e.tier ≠ t) : e.linksAt t = 0 := if_neg h

theorem linksAt_self : e.linksAt e.tier = e.links := if_pos rfl

theorem lexemesAt_tighter (h : e.tier ≠ t) (loose : t ≠ .primary) :
    e.lexemesAt t.tighter = e.lexemesAt t := by
  have ne : e.tier.rank ≠ t.rank := mt Tier.rank_injective h
  have next := Tier.rank_tighter loose
  rcases Nat.lt_or_gt_of_ne ne with lt | gt
  · rw [lexemesAt_of_lt lt, lexemesAt_of_lt (by omega)]
  · rw [lexemesAt_of_le (by omega), lexemesAt_of_le (by omega)]

theorem levelsAt_tighter (h : e.tier ≠ t) (loose : t ≠ .primary) (inner : t ≠ .whole) :
    e.levelsAt t.tighter = e.levelsAt t := by
  have ne : e.tier.rank ≠ t.rank := mt Tier.rank_injective h
  have next := Tier.rank_tighter loose
  rcases Nat.lt_or_gt_of_ne ne with lt | gt
  · rw [levelsAt_of_lt lt, levelsAt_of_lt (by omega)]
  · rw [levelsAt_of_le (by omega) t.tighter_ne_whole, levelsAt_of_le (by omega) inner]

end places

/-! ## First lexemes -/

end Expr

def Lexeme.Starts : Lexeme → Prop
  | .symbol s => s = .leftParen
  | .word name => ¬ ExprParser.isKeyword "not" (.word name)
  | .int _ | .real _ | .text _ => True

namespace Expr

/-- How the lexemes of an expression begin. If the expression is an `operand` of prefix operators, it
does not begin with one. No arrow comes second, as it would in a lambda. -/
def Begins (operand : Prop) (lexemes : List Lexeme) : Prop :=
  ∃ l more, lexemes = l :: more ∧
    (l.Starts ∨ ¬ operand ∧ (l = .symbol .bang ∨ l = .symbol .minus)) ∧
      more.head? ≠ some (.symbol .arrow)

section begins

variable {p q : Prop} {a b : List Lexeme}

theorem Begins.mono (h : Begins p a) (weaker : q → p) : Begins q a := by
  obtain ⟨l, more, rfl, starts | ⟨no, operator⟩, second⟩ := h
  · exact ⟨l, more, rfl, .inl starts, second⟩
  · exact ⟨l, more, rfl, .inr ⟨mt weaker no, operator⟩, second⟩

theorem Begins.append (h : Begins p a) (next : b.head? ≠ some (.symbol .arrow)) :
    Begins p (a ++ b) := by
  obtain ⟨l, more, rfl, first, second⟩ := h
  refine ⟨l, more ++ b, rfl, first, ?_⟩
  cases more with
  | nil => exact next
  | cons => exact second

theorem Begins.head?_ne (h : Begins p a) : a.head? ≠ some (.symbol .arrow) := by
  obtain ⟨l, more, rfl, first, -⟩ := h
  rintro ⟨⟩
  rcases first with starts | ⟨-, operator | operator⟩
  · cases starts
  · cases operator
  · cases operator

theorem Begins.within {e : Expr} (h : Begins (Tier.prefixed.rank < e.tier.rank) e.lexemes)
    (t : Tier) : Begins (Tier.prefixed.rank < t.rank) (e.lexemesAt t) := by
  rcases Nat.lt_or_ge e.tier.rank t.rank with lt | le
  · rw [lexemesAt_of_lt lt]
    refine ⟨_, _, rfl, .inl rfl, ?_⟩
    have second := h.head?_ne
    obtain ⟨l, more, same, -⟩ := h
    rw [same] at second ⊢
    exact second
  · rw [lexemesAt_of_le le]
    exact h.mono fun tight => Nat.lt_of_lt_of_le tight le

theorem begins_separated {s : Symbol} {first : List Lexeme} {rest : List (List Lexeme)}
    (h : Begins p first) (ne : s ≠ .arrow) : Begins p (separated s (first :: rest)) := by
  refine h.append ?_
  cases rest with
  | nil => exact nofun
  | cons next rest =>
    rintro ⟨⟩
    exact ne rfl

theorem begins (e : Expr) (writable : e.AllWritable) :
    Begins (Tier.prefixed.rank < e.tier.rank) e.lexemes := by
  induction e using Expr.induction with
  | step e ih =>
    have within (part : Expr) (mem : part ∈ e.parts) (t : Tier) :=
      (ih part mem (writable.part mem)).within t
    cases e with
    | bool _ b =>
      have plain : ¬ ExprParser.isKeyword "not" (.word (if b then "true" else "false")) := by
        cases b <;> decide +kernel
      exact ⟨_, _, rfl, .inl plain, nofun⟩
    | int _ n =>
      rw [tier, lexemes]
      split
      · exact ⟨_, _, rfl, .inr ⟨Nat.lt_irrefl _, .inr rfl⟩, nofun⟩
      · exact ⟨_, _, rfl, .inl trivial, nofun⟩
    | real _ x =>
      rw [tier, lexemes]
      split
      · exact ⟨_, _, rfl, .inr ⟨Nat.lt_irrefl _, .inr rfl⟩, nofun⟩
      · exact ⟨_, _, rfl, .inl trivial, nofun⟩
    | text => exact ⟨_, _, rfl, .inl trivial, nofun⟩
    | name | call => exact ⟨_, _, rfl, .inl writable.self.2, nofun⟩
    | array =>
      have plain : ¬ ExprParser.isKeyword "not" (.word "new") := by decide +kernel
      exact ⟨_, _, rfl, .inl plain, nofun⟩
    | member target =>
      exact (within target List.mem_cons_self .postfixed).append nofun
    | method target =>
      rw [lexemes, List.append_assoc]
      exact (within target List.mem_cons_self .postfixed).append nofun
    | index target =>
      rw [lexemes, List.append_assoc]
      exact (within target List.mem_cons_self .postfixed).append nofun
    | unary _ op operand =>
      have second := (within operand List.mem_cons_self .prefixed).head?_ne
      cases op with
      | not => exact ⟨_, _, rfl, .inr ⟨Nat.lt_irrefl _, .inl rfl⟩, second⟩
      | negate => exact ⟨_, _, rfl, .inr ⟨Nat.lt_irrefl _, .inr rfl⟩, second⟩
    | binary op left =>
      refine (within left List.mem_cons_self (.chain op.chain)).append ?_
      exact fun arrow => op.written_ne_arrow (Lexeme.symbol.inj (Option.some.inj arrow))
    | logical op first =>
      have notArrow : op.written ≠ .arrow := by cases op <;> exact nofun
      refine (begins_separated (within first List.mem_cons_self _) notArrow).mono fun tight => ?_
      have loose : ¬ Tier.prefixed.rank < (Tier.logical op).rank := by cases op <;> decide
      exact absurd tight loose
    | choice condition =>
      rw [lexemes, List.append_assoc]
      refine ((within condition List.mem_cons_self (.logical .or)).append ?_).mono fun tight => ?_
      · rintro ⟨⟩
      · have loose : ¬ Tier.prefixed.rank < Tier.choice.rank := by decide
        exact absurd tight loose

end begins

end Expr

end LootFilter
