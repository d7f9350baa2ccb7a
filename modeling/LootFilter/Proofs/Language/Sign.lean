import LootFilter.Proofs.Language.Position
import LootFilter.Proofs.Language.Reading
import LootFilter.Proofs.Language.Spelling

/-!
# Signs of whole numbers

The lexer reads whole numbers without a sign, and none that is larger than the largest number of 64
bits. Whichever minuses the parser then takes into a number, the opposite of what it has is always a
number of 64 bits, too.
-/

namespace LootFilter

open ExprParser
open Lexeme (cut cut_number cut_text cut_word cut_symbol exists_of_cutSymbol intLimit)
open Text (isDigit)

/-- Whether a whole number and its opposite are both numbers of 64 bits. -/
def HasOpposite (n : Int) : Prop := -0x7fffffffffffffff ≤ n ∧ n ≤ 0x7fffffffffffffff

namespace HasOpposite

variable {n : Int}

theorem of_lt_intLimit {n : Nat} (h : n < intLimit) : HasOpposite n := by
  rw [intLimit] at h
  constructor <;> omega

theorem neg (h : HasOpposite n) : HasOpposite (-n) := by
  obtain ⟨low, high⟩ := h
  constructor <;> omega

theorem toInt_ofInt (h : HasOpposite n) : (Int64.ofInt n).toInt = n := by
  obtain ⟨low, high⟩ := h
  apply Int64.toInt_ofInt_of_le <;> omega

/-- Negation within 64 bits is exact. -/
theorem toInt_neg_ofInt (h : HasOpposite n) : (-Int64.ofInt n).toInt = -n := by
  rw [← Int64.ofInt_neg]
  exact h.neg.toInt_ofInt

end HasOpposite

/-! ## Tokens -/

namespace Lexeme

variable {c : Char} {cs rest : List Char} {n : Nat}

theorem numeral_lt {whole fraction : List Char} {power : Option Int} {real : Bool}
    (read : numeral whole fraction power real = .ok (.int n)) : n < intLimit := by
  unfold numeral at read
  split at read
  · cases read
  · split at read
    · rename_i small
      cases read
      exact small
    · cases read

/-- The lexer checks the range of every whole number. -/
theorem cut_int_lt (found : cut c cs = .ok (.int n, rest)) : n < intLimit := by
  by_cases digit : isDigit c
  · rw [cut_number digit, scanNumber_eq] at found
    dsimp only at found
    obtain ⟨l, read, same⟩ := Typing.map_eq_ok.1 found
    cases same
    exact numeral_lt read
  by_cases quote : c = '"' ∨ c = '\''
  · rw [cut_text quote] at found
    obtain ⟨⟨value, left⟩, -, same⟩ := Typing.map_eq_ok.1 found
    cases same
  by_cases starts : startsWord c
  · rw [cut_word digit quote starts] at found
    cases found
  · rw [cut_symbol digit quote starts] at found
    obtain ⟨⟨s, same⟩, -⟩ := exists_of_cutSymbol found
    cases same

end Lexeme

theorem Token.FoundAt.int_lt {whole : List Char} {pos n : Nat}
    (found : FoundAt whole pos (.ok (.int n))) : n < intLimit := by
  obtain ⟨c, cs, -, -, ok⟩ := found
  obtain ⟨⟨l, rest⟩, scanned, rfl⟩ := Typing.map_eq_ok.1 ok
  exact Lexeme.cut_int_lt scanned

/-- Whether the whole numbers among the tokens are in the range that the lexer checks. -/
def Token.Bounded (ts : List Token) : Prop := ∀ pos n : Nat, ⟨.int n, pos⟩ ∈ ts → n < intLimit

theorem Token.bounded_of_ofText {text : String} {ts : List Token} (scanned : ofText text = .ok ts) :
    Bounded ts :=
  fun _ _ mem => (found_of_ofText scanned _ mem).int_lt

/-! ## Trees -/

namespace Expr

variable {tokens : List Token} {e : Expr}

/-- Whether every whole number of the expression has an opposite. -/
def Negatable (e : Expr) : Prop := ∀ pos n, (int pos n).IsIn e → HasOpposite n

theorem Negatable.int {pos : Nat} {n : Int} (h : HasOpposite n) : (Expr.int pos n).Negatable := by
  intro pos n inside
  cases inside with
  | self => exact h
  | part mem => cases mem

theorem Negatable.of_parts (plain : ∀ pos n, e ≠ .int pos n)
    (parts : ∀ part ∈ e.parts, part.Negatable) : e.Negatable := by
  intro pos n inside
  cases inside with
  | self => exact absurd rfl (plain pos n)
  | part mem inside => exact parts _ mem pos n inside

theorem Negatable.hasOpposite {pos : Nat} {n : Int} (h : (Expr.int pos n).Negatable) :
    HasOpposite n :=
  h pos n (.self _)

theorem Negatable.applyUnary (pos : Nat) (op : UnaryOp) (h : e.Negatable) :
    (applyUnary pos op e).Negatable := by
  unfold ExprParser.applyUnary
  split
  · exact .int h.hasOpposite.neg
  · exact .of_parts nofun (List.forall_mem_nil _)
  · exact .of_parts nofun (List.forall_mem_singleton.2 h)

/-- A minus leaves a number in the range, so that the next one finds it there again. -/
theorem Derives.negatable {t : Tier} {levels : Nat} {under : Option Nat}
    (bounded : Token.Bounded tokens) (h : Derives tokens t levels under e) : e.Negatable := by
  induction h with
  | int mem => exact .int (.of_lt_intLimit (bounded _ _ mem))
  | bool | real | text | name => exact .of_parts nofun (List.forall_mem_nil _)
  | call _ _ _ ih => exact .of_parts nofun (List.forall_mem_map.2 ih)
  | array _ _ ih => exact .of_parts nofun ih
  | bracket _ ih | whole _ ih | begins _ _ ih | ends _ ih => exact ih
  | member _ ih => exact .of_parts nofun (List.forall_mem_singleton.2 ih)
  | method _ _ _ ih ihArgs =>
    exact .of_parts nofun (List.forall_mem_cons.2 ⟨ih, List.forall_mem_map.2 ihArgs⟩)
  | index _ _ ih ihIndex | link _ _ _ ih ihIndex =>
    exact .of_parts nofun (List.forall_mem_cons.2 ⟨ih, List.forall_mem_singleton.2 ihIndex⟩)
  | prefixed _ _ _ ih => exact ih.applyUnary _ _
  | logical _ _ ih => exact .of_parts nofun ih
  | choice _ _ _ ih ihYes ihNo =>
    exact .of_parts nofun (List.forall_mem_cons.2
      ⟨ih, List.forall_mem_cons.2 ⟨ihYes, List.forall_mem_singleton.2 ihNo⟩⟩)

end Expr

/-! ## Negations on the way -/

namespace ExprParser

variable {ts operand rest : List Token} {depth stop levels minus place : Nat} {n : Int}

/-- What a prefix operator is applied to has been read from tokens of the text. -/
theorem prefixed_negatable {e : Expr} (bounded : Token.Bounded ts)
    (read : outcome (prefixed (expression depth) stop levels ts) = .ok (e, rest)) :
    e.Negatable := by
  obtain ⟨p, parsed, same⟩ := Typing.map_eq_ok.1 read
  cases same
  have gives := prefixed_follows (expression_follows depth) stop levels ts (List.Subset.refl ts)
  exact (gives.reads p parsed).1.negatable bounded

theorem prefixed_minus (h : HasOpposite n)
    (read : outcome (prefixed (expression depth) stop levels operand) = .ok (.int place n, rest)) :
    outcome (prefixed (expression depth) stop (levels + 1) (⟨.symbol .minus, minus⟩ :: operand)) =
      .ok (.int minus (-Int64.ofInt n).toInt, rest) := by
  have negates : unaryOp? ⟨.symbol .minus, minus⟩ = some .negate := rfl
  rw [outcome_prefixed_operator negates, read, h.toInt_neg_ofInt]
  rfl

end ExprParser

namespace Expr

/-- In the tree of an accepted text, every whole number and its opposite are numbers of 64 bits. So
are those of whatever number a minus anywhere in the text is taken into, with however many levels
left, and what comes of it is the number that negation within 64 bits gives. -/
theorem negates_exactly (text : String) (e : Expr) (accepted : ofText text = .ok e) :
    (∀ pos n, (int pos n).IsIn e → HasOpposite n) ∧
    ∃ ts, Token.ofText text = .ok ts ∧
      ∀ (depth stop levels minus place : Nat) (operand rest : List Token) (n : Int),
        ⟨.symbol .minus, minus⟩ :: operand <:+ ts →
        outcome (ExprParser.prefixed (expression depth) stop levels operand) =
          .ok (.int place n, rest) →
        HasOpposite n ∧ (Int64.ofInt n).toInt = n ∧
          outcome (ExprParser.prefixed (expression depth) stop (levels + 1)
              (⟨.symbol .minus, minus⟩ :: operand)) =
            .ok (.int minus (-Int64.ofInt n).toInt, rest) := by
  obtain ⟨ts, scanned, derives⟩ := derives_of_ofText accepted
  have bounded := Token.bounded_of_ofText scanned
  refine ⟨derives.negatable bounded, ts, scanned, ?_⟩
  intro depth stop levels minus place operand rest n behind read
  have fewer : Token.Bounded operand :=
    fun pos n mem => bounded pos n (behind.subset (List.mem_cons_of_mem _ mem))
  have opposite := (prefixed_negatable fewer read).hasOpposite
  exact ⟨opposite, opposite.toInt_ofInt, prefixed_minus opposite read⟩

/-- A minus in front of a bracket, in which another one has been taken into the largest number. -/
def folded : String := "- ( - 9223372036854775807 )"

def foldedOperand : List Token :=
  [⟨.symbol .leftParen, 2⟩, ⟨.symbol .minus, 4⟩, ⟨.int 9223372036854775807, 6⟩,
    ⟨.symbol .rightParen, 26⟩]

theorem ofText_folded : Token.ofText folded = .ok (⟨.symbol .minus, 0⟩ :: foldedOperand) := by
  have opens {cs : List Char} : Lexeme.Opens (' ' :: cs) := by
    rintro _ ⟨⟩
    rfl
  have digits : Lexeme.Spells (.int 9223372036854775807) "9223372036854775807".toList :=
    @Lexeme.Spells.int 9223372036854775807 0 [] (by decide) (by decide)
  have spelled : Token.Written 0 (⟨.symbol .minus, 0⟩ :: foldedOperand)
      ("-".toList ++ ' ' :: ("(".toList ++ ' ' :: ("-".toList ++ ' ' ::
        ("9223372036854775807".toList ++ ' ' :: (")".toList ++ []))))) :=
    .lexeme (.symbol (by decide)) opens (.blank rfl (.lexeme (.symbol (by decide)) opens
      (.blank rfl (.lexeme (.symbol (by decide)) opens (.blank rfl (.lexeme digits opens
        (.blank rfl (.lexeme (.symbol (by decide)) nofun .nil))))))))
  exact Token.ofCharsAt_of_written spelled

theorem negates_exactly_folded :
    ofText folded = .ok (.int 0 9223372036854775807) ∧ HasOpposite 9223372036854775807 ∧
    outcome (ExprParser.prefixed (expression 63) 27 62 foldedOperand) =
      .ok (.int 4 (-9223372036854775807), []) ∧ HasOpposite (-9223372036854775807) ∧
    outcome (ExprParser.prefixed (expression 63) 27 63 (⟨.symbol .minus, 0⟩ :: foldedOperand)) =
      .ok (.int 0 (-Int64.ofInt (-9223372036854775807)).toInt, []) := by
  have accepted : ofText folded = .ok (.int 0 9223372036854775807) := by
    rw [ofText, ofText_folded]
    show ofTokens 27 _ = _
    cbv
  have operand : outcome (ExprParser.prefixed (expression 63) 27 62 foldedOperand) =
      .ok (.int 4 (-9223372036854775807), []) := by cbv
  obtain ⟨tree, ts, scanned, negates⟩ := negates_exactly folded _ accepted
  cases ofText_folded.symm.trans scanned
  obtain ⟨opposite, -, negated⟩ := negates 63 27 62 0 4 _ _ _ List.suffix_rfl operand
  exact ⟨accepted, tree 0 _ (.self _), operand, opposite, negated⟩

end Expr

end LootFilter
