import LootFilter.Proofs.Language.Reading
import LootFilter.Proofs.Language.Written

/-!
# Reading at a place

What reading an expression at a place of some tier comes to, how far the parser of the tier goes,
and why an expression that is read at its own tier is read at every other.
-/

namespace LootFilter

open ExprParser

/-! ## What may follow -/

/-- The tier of the expression that a symbol behind an operand goes on with. -/
def Symbol.tier? : Symbol → Option Tier
  | leftParen => some .primary
  | dot | leftBracket => some .postfixed
  | star | slash | percent => some (.chain .product)
  | plus | minus => some (.chain .sum)
  | less | lessEqual | greater | greaterEqual => some (.chain .order)
  | equal | notEqual => some (.chain .equality)
  | ampersands => some (.logical .and)
  | bars => some (.logical .or)
  | question => some .choice
  | rightParen | rightBracket | leftBrace | rightBrace | comma | colon | arrow | bang => none

def Lexeme.tier? : Lexeme → Option Tier
  | .symbol s => s.tier?
  | .word name =>
    if isKeyword "and" (.word name) then some (.logical .and)
    else if isKeyword "or" (.word name) then some (.logical .or)
    else none
  | .int _ | .real _ | .text _ => none

/-- Whether an expression of tier `t` ends in front of the tokens. -/
def Tier.Ends (t : Tier) (rest : List Token) : Prop :=
  ∀ token ∈ rest.head?, ∀ t' ∈ token.lexeme.tier?, t'.rank < t.rank

section tokens

variable {token : Token} {s : Symbol} {t t' : Tier} {rest ts : List Token}

theorem Token.Writes.eq_symbol (h : token.Writes (.symbol s)) (plain : s.keyword? = none) :
    token.lexeme = .symbol s := by
  rcases h with h | ⟨keyword, mem, -⟩
  · exact h
  · rw [plain] at mem
    cases mem

theorem Lexeme.tier?_keyword {keyword : String} {lexeme : Lexeme} (mem : keyword ∈ s.keyword?)
    (h : isKeyword keyword lexeme) : lexeme.tier? = s.tier? := by
  cases lexeme with
  | word name =>
    have written : name.map Char.toLower = keyword := beq_iff_eq.1 h
    cases s <;> cases mem <;> simp only [tier?, isKeyword, written] <;> rfl
  | int | real | text | symbol => cases h

theorem Token.Writes.tier? (h : token.Writes (.symbol s)) : token.lexeme.tier? = s.tier? := by
  rcases h with h | ⟨keyword, mem, written⟩
  · rw [h]
    rfl
  · exact Lexeme.tier?_keyword mem written

theorem Tier.Ends.nil : t.Ends [] := nofun

theorem Tier.Ends.mono (h : t.Ends rest) (tighter : t.rank ≤ t'.rank) : t'.Ends rest :=
  fun token mem t'' on => Nat.lt_of_lt_of_le (h token mem t'' on) tighter

theorem Lexeme.tier?_ne_whole (l : Lexeme) : l.tier? ≠ some .whole := by
  cases l with
  | symbol s => cases s <;> exact nofun
  | word =>
    rw [tier?]
    split
    · exact nofun
    · split <;> exact nofun
  | int | real | text => exact nofun

theorem Tier.Ends.whole (h : Tier.choice.Ends rest) : Tier.whole.Ends rest := by
  intro token mem t' on
  have loosest : t'.rank = Tier.whole.rank := Nat.lt_one_iff.1 (h token mem t' on)
  exact absurd (rank_injective loosest ▸ on) token.lexeme.tier?_ne_whole

theorem Tier.Ends.cons (written : token.Writes (.symbol s))
    (looser : ∀ t' ∈ s.tier?, t'.rank < t.rank) : t.Ends (token :: rest) := by
  rintro _ ⟨⟩ t' on
  exact looser t' (written.tier? ▸ on)

theorem Tier.Ends.closing (written : token.Writes (.symbol s)) (none : s.tier? = none) :
    t.Ends (token :: rest) := by
  refine .cons written fun t' on => ?_
  rw [none] at on
  cases on

theorem Tier.Ends.lexeme_ne (h : t.Ends rest) (on : s.tier? = some t') (tight : t.rank ≤ t'.rank) :
    ∀ token ∈ rest.head?, token.lexeme ≠ .symbol s := by
  intro token mem same
  have loose := h token mem t' (by rw [same]; exact on)
  omega

theorem Token.Write.append_iff {a b : List Lexeme} :
    Token.Write ts (a ++ b) ↔ ∃ front back, ts = front ++ back ∧ Token.Write front a ∧
      Token.Write back b := by
  constructor
  · intro h
    induction a generalizing ts with
    | nil => exact ⟨[], ts, rfl, .nil, h⟩
    | cons l a ih =>
      obtain ⟨token, more, first, others, rfl⟩ := List.forall₂_cons_right_iff.1 h
      obtain ⟨front, back, rfl, one, two⟩ := ih others
      exact ⟨token :: front, back, rfl, .cons first one, two⟩
  · rintro ⟨front, back, rfl, one, two⟩
    exact List.rel_append one two

theorem Token.Write.cons_iff {l : Lexeme} {a : List Lexeme} :
    Token.Write ts (l :: a) ↔ ∃ token more, ts = token :: more ∧ token.Writes l ∧
      Token.Write more a := by
  unfold Token.Write
  rw [List.forall₂_cons_right_iff]
  constructor
  · rintro ⟨token, more, first, others, rfl⟩
    exact ⟨token, more, rfl, first, others⟩
  · rintro ⟨token, more, rfl, first, others⟩
    exact ⟨token, more, first, others, rfl⟩

theorem Token.Write.cons_symbol {a : List Lexeme} (h : Token.Write ts (.symbol s :: a))
    (plain : s.keyword? = none) :
    ∃ pos more, ts = ⟨.symbol s, pos⟩ :: more ∧ Token.Write more a := by
  obtain ⟨⟨lexeme, pos⟩, more, rfl, first, others⟩ := Token.Write.cons_iff.1 h
  obtain rfl : lexeme = .symbol s := first.eq_symbol plain
  exact ⟨pos, more, rfl, others⟩

theorem Token.Writes.eq_of_symbol {l : Lexeme} (h : token.Writes l)
    (written : token.lexeme = .symbol s) : l = .symbol s := by
  cases l with
  | symbol s' =>
    rcases h with h | ⟨keyword, mem, h⟩
    · exact h.symm.trans written
    · rw [written] at h
      cases h
  | int | real | text | word => exact Eq.trans (Eq.symm h) written

theorem Lexeme.Starts.unaryOp? {l : Lexeme} (starts : l.Starts) (h : token.Writes l) :
    unaryOp? token = none := by
  cases l with
  | symbol s =>
    obtain rfl : s = .leftParen := starts
    rw [ExprParser.unaryOp?, h.eq_symbol rfl]
    rfl
  | word name =>
    have written : token.lexeme = .word name := h
    rw [ExprParser.unaryOp?, written]
    exact if_neg starts
  | int n =>
    have written : token.lexeme = .int n := h
    rw [ExprParser.unaryOp?, written]
    rfl
  | real x =>
    have written : token.lexeme = .real x := h
    rw [ExprParser.unaryOp?, written]
    rfl
  | text x =>
    have written : token.lexeme = .text x := h
    rw [ExprParser.unaryOp?, written]
    rfl

theorem Token.Write.begins {p : Prop} {ls : List Lexeme} (w : Token.Write ts ls)
    (h : Expr.Begins p ls) : ∃ token more, ts = token :: more ∧ (p → unaryOp? token = none) ∧
      (∀ s, token.lexeme = .symbol s → s = .leftParen ∨ s = .bang ∨ s = .minus) ∧
        ∀ t ∈ more.head?, t.lexeme ≠ .symbol .arrow := by
  obtain ⟨l, others, rfl, first, second⟩ := h
  obtain ⟨token, more, rfl, written, rest⟩ := Token.Write.cons_iff.1 w
  refine ⟨token, more, rfl, fun tight => ?_, fun s is => ?_, ?_⟩
  · exact (first.resolve_right fun no => no.1 tight).unaryOp? written
  · have same := written.eq_of_symbol is
    rcases first with starts | ⟨-, operator⟩
    · rw [same] at starts
      exact .inl starts
    · rw [same] at operator
      exact .inr (operator.imp Lexeme.symbol.inj Lexeme.symbol.inj)
  · rintro t mem is
    cases rest with
    | nil => cases mem
    | cons next _ =>
      cases mem
      exact second (congrArg some (next.eq_of_symbol is))

theorem tier?_of_isLogical {op : LogicalOp} (h : isLogical op token) :
    token.lexeme.tier? = some (.logical op) := by
  obtain ⟨lexeme, pos⟩ := token
  cases lexeme with
  | symbol s =>
    cases op with
    | and =>
      obtain rfl : s = .ampersands := beq_iff_eq.1 h
      rfl
    | or =>
      obtain rfl : s = .bars := beq_iff_eq.1 h
      rfl
  | word name =>
    cases op with
    | and => exact Lexeme.tier?_keyword (s := .ampersands) rfl h
    | or => exact Lexeme.tier?_keyword (s := .bars) rfl h
  | int | real | text => cases op <;> cases h

theorem Tier.Ends.not_isLogical {op : LogicalOp} (h : (Tier.logical op).Ends rest) :
    ∀ token ∈ rest.head?, ¬ isLogical op token :=
  fun token mem on => Nat.lt_irrefl _ (h token mem _ (tier?_of_isLogical on))

end tokens

/-! ## Reading with limited levels -/

section arrival

variable {α β γ : Type} {r : Except CompileError β} {fits fits' : Prop} {good : α → Prop}
  {next : α → Except CompileError β}

/-- `r` goes on as `next` from something good if what is read fits into the levels, and fails for
lack of levels otherwise. -/
structure Arrives (r : Except CompileError β) (fits : Prop) (good : α → Prop)
    (next : α → Except CompileError β) : Prop where
  reads : fits → ∃ a, good a ∧ r = next a
  fails : ¬ fits → ∃ pos, r = .error ⟨.nestedTooDeeply, pos⟩

namespace Arrives

theorem here {a : α} (h : good a) : Arrives (next a) True good next :=
  ⟨fun _ => ⟨a, h, rfl⟩, fun no => absurd trivial no⟩

theorem full {pos : Nat} (h : ¬ fits) :
    Arrives (.error ⟨.nestedTooDeeply, pos⟩) fits good next :=
  ⟨fun yes => absurd yes h, fun _ => ⟨pos, rfl⟩⟩

theorem iff (h : Arrives r fits good next) (same : fits ↔ fits') : Arrives r fits' good next :=
  ⟨fun yes => h.reads (same.2 yes), fun no => h.fails (mt same.1 no)⟩

theorem trans {δ : Type} {good' : δ → Prop} {next' : δ → Except CompileError β}
    (first : Arrives r fits good next)
    (second : ∀ a, good a → Arrives (next a) fits' good' next') :
    Arrives r (fits ∧ fits') good' next' := by
  by_cases one : fits
  · obtain ⟨a, h, rfl⟩ := first.reads one
    exact (second a h).iff ⟨fun two => ⟨one, two⟩, And.right⟩
  · obtain ⟨pos, rfl⟩ := first.fails one
    exact full fun both => one both.1

theorem weaken {δ : Type} {good' : δ → Prop} {next' : δ → Except CompileError β}
    (h : Arrives r fits good next) (same : ∀ a, good a → ∃ b, good' b ∧ next a = next' b) :
    Arrives r fits good' next' := by
  refine (h.trans fun a ok => ?_).iff ⟨And.left, fun yes => ⟨yes, trivial⟩⟩
  obtain ⟨b, ok', eq⟩ := same a ok
  exact eq ▸ here ok'

theorem bind {x : Except CompileError γ} {g : α → γ} {f : γ → Except CompileError β}
    (h : Arrives x fits good fun a => .ok (g a)) :
    Arrives (x >>= f) fits good fun a => f (g a) := by
  refine ⟨fun yes => ?_, fun no => ?_⟩
  · obtain ⟨a, ok, rfl⟩ := h.reads yes
    exact ⟨a, ok, rfl⟩
  · obtain ⟨pos, rfl⟩ := h.fails no
    exact ⟨pos, rfl⟩

theorem map {x : Except CompileError γ} {g : α → γ} {v : γ → β}
    (h : Arrives x fits good fun a => .ok (g a)) :
    Arrives (v <$> x) fits good fun a => .ok (v (g a)) := by
  refine ⟨fun yes => ?_, fun no => ?_⟩
  · obtain ⟨a, ok, rfl⟩ := h.reads yes
    exact ⟨a, ok, rfl⟩
  · obtain ⟨pos, rfl⟩ := h.fails no
    exact ⟨pos, rfl⟩

end Arrives

end arrival

namespace Tier

/-- How the parser of the tier goes on from an expression. -/
def further (expr : ExprParser) (stop : Nat) :
    Tier → (levels : Nat) → Expr → List Token → Except CompileError (Expr × List Token)
  | chain c, levels, e, rest =>
    outcome (links ((chain c).tighter.parser expr) c.operator? stop levels e rest)
  | postfixed, levels, e, rest => outcome (suffixes expr stop levels e rest)
  | _, _, e, rest => .ok (e, rest)

/-- Behind an expression that the tier may go on from, only tighter tiers need to have ended. -/
def guard : Tier → Tier
  | chain c => (chain c).tighter
  | postfixed => primary
  | t => t

variable {t : Tier} {rest : List Token}

theorem rank_le_guard (t : Tier) : t.rank ≤ t.guard.rank := by
  cases t with
  | chain c =>
    have next : (chain c).tighter.rank = (chain c).rank + 1 := rank_tighter nofun
    exact next ▸ Nat.le_succ _
  | postfixed => exact Nat.le_succ _
  | whole | choice | logical | prefixed | primary => exact Nat.le_refl _

theorem operator?_tier {c : Chain} {s : Symbol} {op : BinaryOp} (h : c.operator? s = some op) :
    s.tier? = some (.chain c) := by
  cases c <;> cases s <;> first | rfl | cases h

theorem further_stay {expr : ExprParser} {stop levels : Nat} {e : Expr} (ends : t.Ends rest) :
    t.further expr stop levels e rest = .ok (e, rest) := by
  cases t with
  | chain c =>
    refine outcome_links_stay fun token mem s written => ?_
    cases on : c.operator? s with
    | none => rfl
    | some op => exact absurd written (ends.lexeme_ne (operator?_tier on) (Nat.le_refl _) token mem)
  | postfixed =>
    exact outcome_suffixes_stay fun token mem =>
      ⟨ends.lexeme_ne rfl (Nat.le_refl _) token mem, ends.lexeme_ne rfl (Nat.le_refl _) token mem⟩
  | whole | choice | logical | prefixed | primary => rfl

theorem rank_le_primary (t : Tier) : t.rank ≤ primary.rank := by
  cases t with
  | logical op => cases op <;> decide
  | chain c => cases c <;> decide
  | whole | choice | prefixed | postfixed | primary => decide

theorem ne_primary {top : Tier} (h : t.rank < top.rank) : t ≠ .primary := by
  rintro rfl
  exact Nat.not_lt.2 top.rank_le_primary h

theorem descend {P : Tier → Prop} {top : Tier} (base : P top)
    (step : ∀ t, t.rank < top.rank → P t.tighter → P t) (h : t.rank ≤ top.rank) : P t := by
  obtain ⟨gap, eq⟩ := Nat.exists_eq_add_of_le h
  induction gap generalizing t with
  | zero => exact rank_injective eq ▸ base
  | succ gap ih =>
    have lt : t.rank < top.rank := by omega
    have next := rank_tighter (ne_primary lt)
    exact step t lt (ih (by omega) (by omega))

theorem Ends.tighter (h : t.guard.Ends rest) (loose : t ≠ .primary) : t.tighter.Ends rest := by
  have next := rank_tighter loose
  cases t with
  | chain | postfixed => exact h
  | whole | choice | logical | prefixed => exact h.mono (next ▸ Nat.le_succ _)
  | primary => exact absurd rfl loose

section climbing

variable {expr : ExprParser} {stop levels : Nat} {ts : List Token} {fits : Prop}
  {good : Expr → Prop}

/-- What the parser of the next tighter tier reads is read at tier `t`, too, which goes on from it. -/
theorem arrives_looser (inner : t ≠ .whole) (loose : t ≠ .primary)
    (operand : t = .prefixed → ∀ token ∈ ts.head?, unaryOp? token = none)
    (ends : t.guard.Ends rest)
    (read : Arrives (outcome (t.tighter.parser expr stop levels ts)) fits good
      fun e => .ok (e, rest)) :
    Arrives (outcome (t.parser expr stop levels ts)) fits good
      fun e => t.further expr stop levels e rest := by
  cases t with
  | whole => exact absurd rfl inner
  | primary => exact absurd rfl loose
  | postfixed =>
    change Arrives (outcome (ExprParser.postfixed _ stop levels ts)) _ _ _
    rw [outcome_postfixed]
    exact read.bind
  | chain c =>
    rw [parser_chain, outcome_chain]
    exact read.bind
  | prefixed =>
    change Arrives (outcome (ExprParser.prefixed _ stop levels ts)) _ _ _
    cases ts with
    | nil =>
      rw [ExprParser.prefixed]
      exact read
    | cons token more =>
      rw [outcome_prefixed_plain (operand rfl token rfl)]
      exact read
  | logical op =>
    rw [parser_logical, outcome_logical]
    have stays : outcome (operands ((logical op).tighter.parser expr stop levels) op rest) =
        .ok ([], rest) := outcome_operands_stay ends.not_isLogical
    refine read.bind.weaken fun e good => ⟨e, good, ?_⟩
    dsimp only
    rw [stays]
    rfl
  | choice =>
    have stays : behind? .question rest = none :=
      behind?_eq_none (ends.lexeme_ne rfl (Nat.le_refl _))
    change Arrives (outcome (ExprParser.choice _ stop levels ts)) _ _ _
    rw [outcome_choice]
    refine read.bind.weaken fun e good => ⟨e, good, ?_⟩
    dsimp only
    rw [stays]
    rfl

theorem arrives_bracket {pos pos' : Nat}
    (read : Arrives (outcome (expr stop levels (ts ++ ⟨.symbol .rightParen, pos'⟩ :: rest))) fits good
      fun e => .ok (e, ⟨.symbol .rightParen, pos'⟩ :: rest)) :
    Arrives (outcome (ExprParser.primary expr stop levels
        (⟨.symbol .leftParen, pos⟩ :: (ts ++ ⟨.symbol .rightParen, pos'⟩ :: rest)))) fits good
      fun e => .ok (e, rest) := by
  rw [outcome_bracket]
  refine read.bind.weaken fun e ok => ⟨e, ok, ?_⟩
  dsimp only
  rw [symbol_self]
  rfl

/-- What is read at some tier, up to where an expression ends, is read by itself with one level more. -/
theorem arrives_whole {depth : Nat} {top : Tier} (inner : top ≠ .whole)
    (operand : prefixed.rank < top.rank → ∀ token ∈ ts.head?, unaryOp? token = none)
    (ends : choice.Ends rest)
    (read : Arrives (outcome (top.parser (expression depth) stop levels ts)) fits good
      fun e => .ok (e, rest)) :
    Arrives (outcome (expression (depth + 1) stop (levels + 1) ts)) fits good
      fun e => .ok (e, rest) := by
  have positive {t : Tier} (h : t ≠ .whole) : choice.rank ≤ t.rank :=
    Nat.pos_of_ne_zero fun zero => h (rank_injective zero)
  refine descend (t := .choice) (P := fun t => t ≠ .whole →
    Arrives (outcome (t.parser (expression depth) stop levels ts)) fits good fun e => .ok (e, rest))
    (fun _ => read) ?_ (positive inner) nofun
  intro t lt tighter inner
  have ends : t.Ends rest := ends.mono (positive inner)
  refine (arrives_looser inner (ne_primary lt) ?_ (ends.mono t.rank_le_guard)
    (tighter t.tighter_ne_whole)).weaken fun e good => ⟨e, good, further_stay ends⟩
  rintro rfl
  exact operand lt

end climbing

end Tier

namespace Expr

/-- Whether the expression is read at a place of tier `t` when up to `depth` levels may be nested:
its tokens are read as the expression, up to positions, if its levels are left, and reading fails
for lack of levels otherwise. -/
def Reads (depth : Nat) (t : Tier) (e : Expr) : Prop :=
  ∀ stop levels ts rest, levels ≤ depth → Token.Write ts (e.lexemesAt t) → t.guard.Ends rest →
    Arrives (outcome (t.parser (expression depth) stop levels (ts ++ rest)))
      (e.levelsAt t ≤ levels) (fun e' => e'.unplaced = e.unplaced)
      fun e' => t.further (expression depth) stop (levels - e.linksAt t) e' rest

theorem Reads.arrives {depth levels : Nat} {t : Tier} {e : Expr} {ts rest : List Token}
    (h : e.Reads depth t) (stop : Nat) (fewer : levels ≤ depth)
    (written : Token.Write ts (e.lexemesAt t)) (ends : t.Ends rest) :
    Arrives (outcome (t.parser (expression depth) stop levels (ts ++ rest)))
      (e.levelsAt t ≤ levels) (fun e' => e'.unplaced = e.unplaced) fun e' => .ok (e', rest) :=
  (h stop levels ts rest fewer written (ends.mono t.rank_le_guard)).weaken fun e' same =>
    ⟨e', same, Tier.further_stay ends⟩

/-! ## From tier to tier -/

section tiers

variable {depth : Nat} {t : Tier} {e : Expr}

theorem Reads.looser (h : e.Reads depth t.tighter) (writable : e.AllWritable) (ne : e.tier ≠ t)
    (inner : t ≠ .whole) (loose : t ≠ .primary) : e.Reads depth t := by
  intro stop levels ts rest fewer written ends
  -- It stands there as at the next tier, and nothing behind it makes the parser of `t` go on.
  rw [← lexemesAt_tighter ne loose] at written
  rw [← levelsAt_tighter ne loose inner, linksAt_of_ne ne]
  refine Tier.arrives_looser inner loose ?_ ends (h.arrives stop fewer written (ends.tighter loose))
  rintro rfl
  obtain ⟨token, more, rfl, operand, -⟩ := written.begins ((begins e writable).within _)
  rintro _ ⟨⟩
  exact operand (Nat.le_refl _)

theorem tier_ne_whole (e : Expr) : e.tier ≠ .whole := by
  intro same
  cases e with
  | int | real =>
    rw [tier] at same
    split at same <;> cases same
  | _ => cases same

theorem rank_tier_pos (e : Expr) : Tier.choice.rank ≤ e.tier.rank :=
  Nat.pos_of_ne_zero fun zero => e.tier_ne_whole (Tier.rank_injective zero)

theorem Reads.whole (h : ∀ depth, e.Reads depth .choice) : e.Reads depth .whole := by
  intro stop levels ts rest fewer written ends
  have same : e.lexemesAt .choice = e.lexemesAt .whole :=
    lexemesAt_tighter e.tier_ne_whole nofun
  rw [levelsAt_whole]
  cases levels with
  | zero =>
    change Arrives (outcome (expression depth stop 0 (ts ++ rest))) _ _ _
    rw [outcome_expression_full]
    exact .full (Nat.not_succ_le_zero _)
  | succ left =>
    obtain ⟨depth, rfl⟩ := Nat.exists_eq_add_of_le' (Nat.zero_lt_of_lt fewer)
    have read := (h depth).arrives stop (Nat.le_of_succ_le_succ fewer)
      (same ▸ written) (ends.mono (Nat.zero_le _))
    rw [levelsAt_of_le e.rank_tier_pos nofun] at read
    exact read.iff Nat.succ_le_succ_iff.symm

theorem Reads.bracketed (h : e.Reads depth .whole) (loose : e.tier.rank < Tier.primary.rank) :
    e.Reads depth .primary := by
  intro stop levels ts rest fewer written ends
  rw [lexemesAt_of_lt loose] at written
  obtain ⟨pos, more, rfl, within⟩ := Token.Write.cons_symbol written rfl
  obtain ⟨inner, last, rfl, whole, ending⟩ := Token.Write.append_iff.1 within
  obtain ⟨pos', _, rfl, ⟨⟩⟩ := Token.Write.cons_symbol ending rfl
  have same : e.levelsAt .primary = e.levelsAt .whole := by
    rw [levelsAt_of_lt loose, levelsAt_whole]
  have ends : Tier.whole.Ends (⟨.symbol .rightParen, pos'⟩ :: rest) := .closing (.inl rfl) rfl
  rw [← lexemesAt_whole] at whole
  have read := h.arrives stop fewer whole ends
  change Arrives (outcome (primary _ stop levels (_ :: (inner ++ [_] ++ rest)))) _ _ _
  rw [List.append_assoc, same]
  exact Tier.arrives_bracket read

end tiers

theorem Reads.everywhere {e : Expr} (own : ∀ depth, e.Reads depth e.tier)
    (writable : e.AllWritable) (depth : Nat) (t : Tier) : e.Reads depth t := by
  -- Unchanged at the looser tiers, down to one that stands by itself,
  have outside (depth : Nat) (t : Tier) (inner : t ≠ .whole) (loose : t.rank ≤ e.tier.rank) :
      e.Reads depth t := by
    refine Tier.descend (P := fun t => t ≠ .whole → e.Reads depth t) (fun _ => own depth) ?_ loose
      inner
    intro t lt read inner
    have ne : e.tier ≠ t := fun same => Nat.ne_of_gt lt (congrArg _ same)
    exact (read t.tighter_ne_whole).looser writable ne inner (Tier.ne_primary lt)
  have whole (depth : Nat) : e.Reads depth .whole :=
    .whole fun depth => outside depth .choice nofun e.rank_tier_pos
  -- and that one in brackets at the tighter ones.
  have inside (loose : e.tier.rank < t.rank) : e.Reads depth t := by
    refine Tier.descend (P := fun t => e.tier.rank < t.rank → e.Reads depth t)
      (whole depth).bracketed ?_ t.rank_le_primary loose
    intro t lt read loose
    have ne : e.tier ≠ t := fun same => Nat.ne_of_lt loose (congrArg _ same)
    have next := Tier.rank_tighter (Tier.ne_primary lt)
    refine (read (next ▸ Nat.lt_succ_of_lt loose)).looser writable ne ?_ (Tier.ne_primary lt)
    rintro rfl
    exact Nat.not_lt_zero _ loose
  rcases Nat.lt_or_ge e.tier.rank t.rank with loose | tight
  · exact inside loose
  · by_cases is : t = .whole
    · exact is ▸ whole depth
    · exact outside depth t is tight

end Expr

end LootFilter
