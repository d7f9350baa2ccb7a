import LootFilter.Proofs.Language.RoundTrip
import LootFilter.Proofs.Language.Spelling
import LootFilter.Proofs.Value.Typed

/-!
# Whole numbers as literals

The decimal text of a whole number of 64 bits is read as a literal for it, and so a rule can compare
a field with any number but one. The digits are checked before the minus in front of them counts,
and the digits of the least number are too large by themselves.
-/

namespace LootFilter

open ExprParser
open Lexeme (Spells Writable cut cut_digits cut_symbol cutSymbol_one intLimit isDigit_of_mem_digits
  digitsValue_digits isDigit_of_isBlank)
open Text (isBlank isDigit)

/-! ## Tokens -/

namespace Token

variable {pos : Nat} {n : Int}

/-- What the decimal text of a number is cut into. -/
def ofInt (pos : Nat) (n : Int) : List Token :=
  if n < 0 then [⟨.symbol .minus, pos⟩, ⟨.int n.natAbs, pos + 1⟩] else [⟨.int n.natAbs, pos⟩]

theorem ofCharsAt_digits (pos n : Nat) : ofCharsAt pos (Nat.toDigits 10 n) =
    if n < intLimit then .ok [⟨.int n, pos⟩]
    else .error ⟨.invalidInt (String.ofList (Nat.toDigits 10 n)), pos⟩ := by
  have digits (d : Char) (mem : d ∈ Nat.toDigits 10 n) : isDigit d :=
    isDigit_of_mem_digits (List.mem_append_right (List.replicate 0 '0') mem)
  have value := digitsValue_digits n 0
  rw [List.replicate_zero, List.nil_append] at value
  cases same : Nat.toDigits 10 n with
  | nil => exact absurd same Nat.toDigits_ne_nil
  | cons d ds =>
    rw [same] at digits value
    have visible : ¬isBlank d := by
      intro blank
      have digit := digits d List.mem_cons_self
      rw [isDigit_of_isBlank blank] at digit
      cases digit
    have found : cut d ds = (·, []) <$> Lexeme.numeral (d :: ds) [] none false := by
      rw [← cut_digits List.mem_cons_self digits, List.append_nil]
    dsimp only [Lexeme.numeral] at found
    rw [value] at found
    split
    · rename_i small
      rw [if_pos small] at found
      rw [ofCharsAt_lexeme visible found, ofCharsAt]
      rfl
    · rename_i large
      rw [if_neg large] at found
      rw [ofCharsAt_error visible found]

theorem toList_toString_int (n : Int) : (toString n).toList =
    if n < 0 then '-' :: Nat.toDigits 10 n.natAbs else Nat.toDigits 10 n.natAbs := by
  cases n with
  | ofNat n =>
    have plain : ¬Int.ofNat n < 0 := Int.not_lt.2 (Int.natCast_nonneg n)
    rw [if_neg plain]
    exact String.toList_ofList
  | negSucc n =>
    rw [if_pos (Int.negSucc_lt_zero n)]
    change ("-" ++ String.ofList (Nat.toDigits 10 (n + 1))).toList = _
    rw [String.toList_append, Int.natAbs_negSucc]
    exact congrArg ('-' :: ·) String.toList_ofList

theorem ofCharsAt_minus (pos : Nat) (cs : List Char) : ofCharsAt pos ('-' :: cs) =
    (⟨.symbol .minus, pos⟩ :: ·) <$> ofCharsAt (pos + 1) cs := by
  have single : ∀ d ∈ cs.head?, Lexeme.symbolOfTwo? '-' d = none := fun d _ => rfl
  have found : cut '-' cs = .ok (.symbol .minus, cs) := by
    rw [cut_symbol (by decide) (by decide) (by decide), cutSymbol_one single]
    rfl
  have width : cs.length + 1 - cs.length = 1 := Nat.add_sub_cancel_left ..
  rw [ofCharsAt_lexeme (by decide) found, width]

/-- The range is checked without the sign. -/
theorem ofText_toString (n : Int) : ofText (toString n) =
    if n.natAbs < intLimit then .ok (ofInt 0 n)
    else .error ⟨.invalidInt (String.ofList (Nat.toDigits 10 n.natAbs)), if n < 0 then 1 else 0⟩ := by
  rw [ofText, toList_toString_int, ofInt]
  by_cases negative : n < 0
  · simp only [if_pos negative, ofCharsAt_minus, ofCharsAt_digits]
    split <;> rfl
  · simp only [if_neg negative, ofCharsAt_digits]

theorem ofText_of_spells {l : Lexeme} {text : String} (spells : Spells l text.toList) :
    ofText text = .ok [⟨l, 0⟩] := by
  have written : Written 0 [⟨l, 0⟩] (text.toList ++ []) := .lexeme spells nofun .nil
  rw [List.append_nil] at written
  exact ofCharsAt_of_written written

theorem natAbs_lt_intLimit {n : Int64} : n.toInt.natAbs < intLimit ↔ n ≠ Int64.minValue := by
  have low := n.le_toInt
  have high := n.toInt_lt
  rw [ne_eq, ← Int64.toInt_inj, Int64.toInt_minValue, intLimit]
  omega

theorem ofText_int64 (n : Int64) : ofText (toString n) =
    if n = Int64.minValue then .error ⟨.invalidInt "9223372036854775808", 1⟩
    else .ok (ofInt 0 n.toInt) := by
  change ofText (toString n.toInt) = _
  rw [ofText_toString]
  by_cases least : n = Int64.minValue
  · rw [if_pos least, if_neg (mt natAbs_lt_intLimit.1 (not_not_intro least)), least]
    rfl
  · rw [if_neg least, if_pos (natAbs_lt_intLimit.2 least)]

theorem map_shift_ofInt (k pos : Nat) (n : Int) :
    (ofInt pos n).map (shift k) = ofInt (pos + k) n := by
  rw [ofInt, ofInt]
  split
  · simp only [List.map_cons, List.map_nil, shift, Nat.add_right_comm]
  · rfl

end Token

namespace Expr

variable {pos stop : Nat} {n : Int}

theorem ofTokens_ofInt (pos stop : Nat) (n : Int) :
    ofTokens stop (Token.ofInt pos n) = .ok (.int pos n) := by
  -- A number is a whole expression, read at the tier of its sign or, if it has none, of its digits.
  have whole {ts : List Token} {e : Expr} (top : Tier) (inner : top ≠ .whole)
      (operand : Tier.prefixed.rank < top.rank → ∀ token ∈ ts.head?, unaryOp? token = none)
      (read : outcome (top.parser (expression 63) stop 63 ts) = .ok (e, [])) :
      ofTokens stop ts = .ok e := by
    have here : Arrives (outcome (top.parser (expression 63) stop 63 ts)) True (· = e)
        fun e => .ok (e, []) := ⟨fun _ => ⟨e, rfl, read⟩, fun no => absurd trivial no⟩
    obtain ⟨_, rfl, eq⟩ := (arrives_ofTokens (Tier.arrives_whole inner operand .nil here)).reads
      trivial
    exact eq
  by_cases negative : n < 0
  · rw [Token.ofInt, if_pos negative]
    have same : -(n.natAbs : Int) = n := by omega
    have digits : outcome (ExprParser.prefixed (expression 63) stop 62
        [⟨.int n.natAbs, pos + 1⟩]) = .ok (.int (pos + 1) n.natAbs, []) := rfl
    refine whole .prefixed nofun (fun tight => absurd tight (Nat.lt_irrefl _)) ?_
    change outcome (ExprParser.prefixed (expression 63) stop (62 + 1) _) = _
    have minus : unaryOp? ⟨.symbol .minus, pos⟩ = some .negate := rfl
    rw [outcome_prefixed_operator minus, digits]
    exact congrArg (fun n => Except.ok (Expr.int pos n, [])) same
  · rw [Token.ofInt, if_neg negative]
    have same : (n.natAbs : Int) = n := Int.natAbs_of_nonneg (Int.not_lt.1 negative)
    refine whole .primary nofun (fun _ => ?_) (congrArg (fun n => Except.ok (Expr.int pos n, [])) same)
    rintro _ ⟨⟩
    rfl

/-- A text that is a name and nothing else. -/
structure IsName (name : String) : Prop where
  word : (Lexeme.word name).Writable
  writable : (Expr.name 0 name).IsWritable

/-- Whether the characters are those of one word. -/
def isWord : List Char → Bool
  | c :: cs => Lexeme.startsWord c && cs.all Lexeme.continuesWord
  | [] => false

theorem isName_iff {name : String} : IsName name ↔ isWord name.toList ∧
    name ∉ ["true", "false", "new"] ∧ ¬isKeyword "not" (.word name) := by
  constructor
  · rintro ⟨⟨c, cs, same, starts, continues⟩, writable⟩
    rw [same]
    exact ⟨Bool.and_eq_true_iff.2 ⟨starts, List.all_eq_true.2 continues⟩, writable⟩
  · rintro ⟨word, writable⟩
    cases same : name.toList with
    | nil =>
      rw [same] at word
      cases word
    | cons c cs =>
      rw [same] at word
      obtain ⟨starts, continues⟩ := Bool.and_eq_true_iff.1 word
      exact ⟨⟨c, cs, same, starts, List.all_eq_true.1 continues⟩, writable⟩

instance : DecidablePred IsName := fun _ => decidable_of_iff _ isName_iff.symm

theorem IsName.ofText {name : String} (h : IsName name) :
    Token.ofText name = .ok [⟨.word name, 0⟩] := by
  obtain ⟨c, cs, same, starts, continues⟩ := h.word
  have spells : Spells (.word (String.ofList (c :: cs))) (c :: cs) := .word starts continues
  rw [← same, String.ofList_toList] at spells
  exact Token.ofText_of_spells spells

/-- Items have fields under the names of the fields and, of one, under another name. -/
theorem isName_of_field? {name : String} {found : Nat × Ty}
    (h : RecordKind.item.field? name = some found) : IsName name := by
  have names : ∀ name ∈ "Corrupted" :: Item.fields.map RecordField.name, IsName name := by
    decide +kernel
  refine names name ?_
  by_cases other : name = "Corrupted"
  · exact other ▸ List.mem_cons_self
  · obtain ⟨field, stands, -, named⟩ := RecordKind.field?_eq_some h
    have unaliased : RecordKind.item.aliases.lookup name = none := by
      simp [RecordKind.aliases, other]
    rw [RecordKind.named?, unaliased, Option.getD_none] at named
    have found := List.find?_some named
    have same : field.name = name := of_decide_eq_true found
    exact List.mem_cons_of_mem _ (List.mem_map.2 ⟨field, List.mem_of_getElem? stands, same⟩)

/-! ## Comparisons with a literal -/

/-- Everything of a comparison with a literal that stands in front of the literal. -/
def comparisonFront (field : String) (c : Comparison) : String :=
  field ++ " " ++ (BinaryOp.compare c).symbol ++ " "

theorem ofText_comparisonFront {field : String} (h : IsName field) (c : Comparison)
    (literal : String) : Token.ofText (comparisonFront field c ++ literal) =
      ([⟨.word field, 0⟩, ⟨.symbol (BinaryOp.compare c).written, (field ++ " ").length⟩] ++ ·) <$>
        Token.shifted (comparisonFront field c).length (Token.ofText literal) := by
  have gap : Token.IsGap " " := ⟨by decide, by decide⟩
  have symbol : Token.ofText (BinaryOp.compare c).symbol =
      .ok [⟨.symbol (BinaryOp.compare c).written, 0⟩] :=
    Token.ofText_of_spells (.symbol (by cases c <;> decide))
  have front : Token.ofText (field ++ " " ++ (BinaryOp.compare c).symbol) =
      .ok [⟨.word field, 0⟩, ⟨.symbol (BinaryOp.compare c).written, (field ++ " ").length⟩] := by
    rw [Token.ofText_append h.ofText gap, symbol]
    change Except.ok [_, Token.mk _ (0 + _)] = _
    rw [Nat.zero_add]
  exact Token.ofText_append front gap

/-- The comparison, without its positions. -/
def comparison (field : String) (c : Comparison) (n : Int) : Expr :=
  .binary (.compare c) (.name 0 field) (.int 0 n)

section comparison

variable {field : String} {c : Comparison} {n : Int}

theorem comparison_writable (h : IsName field) : (comparison field c n).AllWritable := by
  refine .of_parts trivial (List.forall_mem_cons.2 ⟨?_, List.forall_mem_singleton.2 ?_⟩)
  · exact .of_parts h.writable (List.forall_mem_nil _)
  · exact .of_parts trivial (List.forall_mem_nil _)

theorem operand_rank_le :
    (Tier.chain (BinaryOp.compare c).chain).tighter.rank ≤ (Expr.int 0 n).tier.rank := by
  rw [tier]
  split <;> cases c <;> decide

variable (field c n) in
theorem comparison_written (p q k : Nat) : Token.Write
    (⟨.word field, p⟩ :: ⟨.symbol (BinaryOp.compare c).written, q⟩ :: Token.ofInt k n)
    (comparison field c n).lexemes := by
  change Token.Write _ ((Expr.name 0 field).lexemesAt (.chain (BinaryOp.compare c).chain) ++
    .symbol (BinaryOp.compare c).written :: (Expr.int 0 n).lexemesAt _)
  rw [lexemesAt_of_le (Tier.rank_le_primary _), lexemesAt_of_le operand_rank_le]
  refine .cons rfl (.cons (.inl rfl) ?_)
  rw [Token.ofInt, lexemes]
  split
  · exact .cons (.inl rfl) (.cons rfl .nil)
  · exact .cons rfl .nil

theorem comparison_flat : (comparison field c n).levels < maxLevels := by
  have sign : (Expr.int 0 n).levels ≤ 1 := by
    rw [levels]
    split <;> decide
  change max ((Expr.name 0 field).levelsAt (.chain (BinaryOp.compare c).chain))
    (0 + 1 + (Expr.int 0 n).levelsAt _) < 64
  rw [levelsAt_of_le (t := .chain _) (Tier.rank_le_primary _) nofun,
    levelsAt_of_le operand_rank_le (Tier.tighter_ne_whole _), levels]
  omega

theorem exists_of_unplaced {e : Expr} (same : e.unplaced = comparison field c n) :
    ∃ p q, e = .binary (.compare c) (.name p field) (.int q n) := by
  cases e with
  | binary op l r =>
    obtain ⟨rfl, left, right⟩ := Expr.binary.inj same
    cases l with
    | name p s =>
      obtain ⟨-, rfl⟩ := Expr.name.inj left
      cases r with
      | int q m =>
        obtain ⟨-, rfl⟩ := Expr.int.inj right
        exact ⟨p, q, rfl⟩
      | _ => cases right
    | _ => cases left
  | _ => cases same

theorem ofTokens_comparison (h : IsName field) (p q k stop : Nat) : ∃ e,
    ofTokens stop (⟨.word field, p⟩ :: ⟨.symbol (BinaryOp.compare c).written, q⟩ ::
      Token.ofInt k n) = .ok e ∧ e.unplaced = comparison field c n := by
  have written := comparison_written field c n p q k
  obtain ⟨e, same, read⟩ := (arrives_written (comparison_writable h) written stop).reads
    comparison_flat
  exact ⟨e, read, same⟩

/-- Whatever the places of its parts are, the field is compared with the number. -/
theorem compile_comparison {schema : Schema} {e : Expr} {i : Nat} {n : Int64}
    (same : e.unplaced = comparison field c n.toInt)
    (named : RecordKind.item.field? field = some (i, .int)) :
    e.compile schema [] = .ok (.compare c .int (.field .root i) (.literal (.int n)), .bool) := by
  obtain ⟨p, q, rfl⟩ := exists_of_unplaced same
  have found : Typing.identifier [] field p = .ok (.field .root i, .int) := by
    simp only [Typing.identifier, Typing.param?, Typing.elementField?, Typing.itemField?, named,
      Option.map_some, Option.or]
  simp only [compile, found, Typing.binary, Typing.comparable?, bind, Except.bind, Int64.ofInt_toInt]

end comparison

/-! ## Texts -/

theorem ofText_int64 (n : Int64) : ofText (toString n) =
    if n = Int64.minValue then .error ⟨.invalidInt "9223372036854775808", 1⟩
    else .ok (.int 0 n.toInt) := by
  rw [ofText, Token.ofText_int64]
  split
  · rfl
  · exact ofTokens_ofInt ..

def comparisonText (field : String) (c : Comparison) (n : Int64) : String :=
  comparisonFront field c ++ toString n

end Expr

namespace Schema

theorem compile_comparisonText (schema : Schema) {field : String} {i : Nat}
    (named : RecordKind.item.field? field = some (i, .int)) (c : Comparison) (n : Int64) :
    schema.compile (Expr.comparisonText field c n) =
      if n = Int64.minValue then
        .error ⟨.invalidInt "9223372036854775808", (Expr.comparisonFront field c).length + 1⟩
      else .ok (.compare c .int (.field .root i) (.literal (.int n))) := by
  have name := Expr.isName_of_field? named
  rw [compile, Expr.ofText, Expr.comparisonText, Expr.ofText_comparisonFront name,
    Token.ofText_int64]
  split
  · rw [Nat.add_comm]
    rfl
  · obtain ⟨e, read, same⟩ := Expr.ofTokens_comparison (c := c) (n := n.toInt) name 0
      (field ++ " ").length (Expr.comparisonFront field c).length
      (Expr.comparisonFront field c ++ toString n).toList.length
    rw [Token.shifted, Token.map_shift_ofInt, Nat.zero_add]
    change (Expr.ofTokens _ (_ :: _ :: Token.ofInt _ _) >>= _) = _
    rw [read]
    change (e.compile schema [] >>= _) = _
    rw [Expr.compile_comparison same named]
    rfl

/-- The decimal text of every number but the least one is read as a literal for it, by itself and
behind a field and a comparison. -/
theorem decimal_literals (schema : Schema) :
    (∀ n : Int64, Expr.ofText (toString n) =
      if n = Int64.minValue then .error ⟨.invalidInt "9223372036854775808", 1⟩
      else .ok (.int 0 n.toInt)) ∧
    ∀ field i, RecordKind.item.field? field = some (i, .int) → ∀ (c : Comparison) (n : Int64),
      schema.compile (Expr.comparisonText field c n) =
        if n = Int64.minValue then
          .error ⟨.invalidInt "9223372036854775808", (Expr.comparisonFront field c).length + 1⟩
        else .ok (.compare c .int (.field .root i) (.literal (.int n))) :=
  ⟨Expr.ofText_int64, fun _ _ named => schema.compile_comparisonText named⟩

theorem decimal_literals_quality : RecordKind.item.field? "ItemQuality" = some (7, .int) ∧
    Expr.comparisonText "ItemQuality" .ge (-5) = "ItemQuality >= -5" ∧
    Schema.standard.compile "ItemQuality >= -5" =
      .ok (.compare .ge .int (.field .root 7) (.literal (.int (-5)))) :=
  have named : RecordKind.item.field? "ItemQuality" = some (7, .int) := by rfl
  ⟨named, by rfl, (decimal_literals Schema.standard).2 _ _ named .ge (-5)⟩

/-- The least number is not read as a literal. -/
theorem least_has_no_literal :
    Expr.ofText (toString Int64.minValue) ≠ .ok (.int 0 Int64.minValue.toInt) := by
  rw [Expr.ofText_int64, if_pos rfl]
  exact nofun

end Schema

end LootFilter
