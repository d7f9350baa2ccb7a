import LootFilter.Proofs.Language.Tokens
import Mathlib.Data.List.TakeWhile

/-!
# Writing tokens

Lexemes other than reals are easily written down, most of them in several ways. Whichever are chosen,
and however much white space stands between them, cutting the text gives the lexemes back, each at
its place.
-/

namespace LootFilter

open Text (isBlank isDigit)

def Symbol.spellings : Symbol → List (List Char)
  | .leftParen => [['(']]
  | .rightParen => [[')']]
  | .leftBracket => [['[']]
  | .rightBracket => [[']']]
  | .leftBrace => [['\x7b']]
  | .rightBrace => [['\x7d']]
  | .comma => [[',']]
  | .dot => [['.']]
  | .question => [['?']]
  | .colon => [[':']]
  | .arrow => [['=', '>']]
  | .bang => [['!']]
  | .ampersands => [['&', '&']]
  | .bars => [['|', '|']]
  | .equal => [['='], ['=', '=']]
  | .notEqual => [['!', '='], ['<', '>']]
  | .less => [['<']]
  | .lessEqual => [['<', '=']]
  | .greater => [['>']]
  | .greaterEqual => [['>', '=']]
  | .plus => [['+']]
  | .minus => [['-']]
  | .star => [['*']]
  | .slash => [['/']]
  | .percent => [['%']]

namespace Lexeme

/-- What may stand between quotes for the characters of a text. -/
inductive Quoted (quote : Char) : (value body : List Char) → Prop
  | nil : Quoted quote [] []
  | backslash {value body} : Quoted quote value body →
    Quoted quote ('\\' :: value) ('\\' :: '\\' :: body)
  | doubled {value body} : Quoted quote value body →
    Quoted quote (quote :: value) (quote :: quote :: body)
  | escaped {value body} : Quoted quote value body →
    Quoted quote (quote :: value) ('\\' :: quote :: body)
  | raw {c value body} : c ≠ '\\' → c ≠ quote → Quoted quote value body →
    Quoted quote (c :: value) (c :: body)

/-- What may be written for a lexeme. -/
inductive Spells : Lexeme → List Char → Prop
  | int {n zeros suffix} : n < intLimit → suffix ∈ [[], ['l'], ['L']] →
    Spells (.int n) (List.replicate zeros '0' ++ Nat.toDigits 10 n ++ suffix)
  | text {quote value body} : quote = '"' ∨ quote = '\'' → Quoted quote value body →
    Spells (.text (String.ofList value)) (quote :: (body ++ [quote]))
  | word {c cs} : startsWord c → (∀ d ∈ cs, continuesWord d) →
    Spells (.word (String.ofList (c :: cs))) (c :: cs)
  | symbol {s spelling} : spelling ∈ s.spellings → Spells (.symbol s) spelling

/-- Real numbers are left out, and so is what no text is cut into. -/
def Writable : Lexeme → Prop
  | .int n => n < intLimit
  | .real _ => False
  | .text _ => True
  | .word name => ∃ c cs, name.toList = c :: cs ∧ startsWord c ∧ ∀ d ∈ cs, continuesWord d
  | .symbol _ => True

theorem exists_quoted (quote : Char) (value : List Char) : ∃ body, Quoted quote value body := by
  induction value with
  | nil => exact ⟨[], .nil⟩
  | cons c value ih =>
    obtain ⟨body, quoted⟩ := ih
    by_cases plain : c = '\\'
    · subst plain
      exact ⟨_, .backslash quoted⟩
    by_cases other : c = quote
    · subst other
      exact ⟨_, .doubled quoted⟩
    · exact ⟨_, .raw plain other quoted⟩

theorem exists_spells {l : Lexeme} (writable : l.Writable) : ∃ cs, Spells l cs := by
  cases l with
  | int n => exact ⟨_, @Spells.int n 0 [] writable List.mem_cons_self⟩
  | real x => exact writable.elim
  | text s =>
    obtain ⟨body, quoted⟩ := exists_quoted '"' s.toList
    rw [← String.ofList_toList (s := s)]
    exact ⟨_, .text (.inl rfl) quoted⟩
  | word name =>
    obtain ⟨c, cs, same, starts, continues⟩ := writable
    rw [← String.ofList_toList (s := name), same]
    exact ⟨_, .word starts continues⟩
  | symbol s => cases s <;> exact ⟨_, .symbol List.mem_cons_self⟩

/-! ## Whole numbers -/

section numbers

variable {n zeros : Nat} {d : Char} {ds : List Char}

theorem isDigit_of_mem_digits (mem : d ∈ List.replicate zeros '0' ++ Nat.toDigits 10 n) :
    isDigit d := by
  obtain zero | digit := List.mem_append.1 mem
  · obtain rfl := List.eq_of_mem_replicate zero
    rfl
  · exact Nat.isDigit_of_mem_toDigits (b := 10) (by decide) (by decide) digit

theorem digitsValue_eq (ds : List Char) : Decimal.digitsValue ds = Nat.ofDigitChars 10 ds 0 := by
  rw [Decimal.digitsValue, Nat.ofDigitChars]
  simp only [Nat.mul_comm]

theorem digitsValue_digits (n zeros : Nat) :
    Decimal.digitsValue (List.replicate zeros '0' ++ Nat.toDigits 10 n) = n := by
  rw [digitsValue_eq, Nat.ofDigitChars_append, Nat.ofDigitChars_replicate_zero, Nat.mul_zero,
    Nat.ofDigitChars_ten_toDigits]

theorem span_digits {suffix : List Char} (digits : ∀ d ∈ ds, isDigit d)
    (ends : suffix.head?.any isDigit = false) :
    (Parsed.span isDigit (ds ++ suffix)).pair = (ds, suffix) := by
  change ((ds ++ suffix).takeWhile isDigit, (ds ++ suffix).dropWhile isDigit) = (ds, suffix)
  rw [List.takeWhile_append_of_pos digits, List.dropWhile_append_of_pos digits]
  cases suffix with
  | nil => simp
  | cons d suffix =>
    have stop : isDigit d = false := ends
    simp [stop]

/-- A suffix that leaves a number whole ends its digits and is not part of a fraction or an
exponent. -/
theorem integral_suffix : ∀ cs ∈ [[], ['l'], ['L']], cs.head?.any isDigit = false ∧
    (fraction cs).pair = ([], cs) ∧ (exponent cs).pair = (none, cs) ∧
    (suffix cs).pair = (false, []) := by
  decide

/-- Digits by themselves are a whole number, which may be too large. -/
theorem cut_digits {cs : List Char} (integral : cs ∈ [[], ['l'], ['L']])
    (digits : ∀ e ∈ d :: ds, isDigit e) :
    cut d (ds ++ cs) = (·, []) <$> numeral (d :: ds) [] none false := by
  obtain ⟨first, others⟩ := List.forall_mem_cons.1 digits
  obtain ⟨ends, fraction, power, whole⟩ := integral_suffix cs integral
  rw [cut_number first, scanNumber_eq, span_digits others ends]
  dsimp only
  rw [fraction, power, whole]

theorem cut_int {cs : List Char} (small : n < intLimit) (integral : cs ∈ [[], ['l'], ['L']])
    (same : List.replicate zeros '0' ++ Nat.toDigits 10 n = d :: ds) :
    cut d (ds ++ cs) = .ok (.int n, []) := by
  have digits : ∀ e ∈ d :: ds, isDigit e := by
    rw [← same]
    exact fun _ => isDigit_of_mem_digits
  have value : Decimal.digitsValue (d :: ds) = n := by
    rw [← same, digitsValue_digits]
  rw [cut_digits integral digits]
  dsimp only [numeral]
  rw [value, if_pos small]
  rfl

end numbers

/-! ## Texts -/

theorem cutText_quoted {quote : Char} (isQuote : quote = '"' ∨ quote = '\'')
    {value body : List Char} (quoted : Quoted quote value body) :
    cutText quote (body ++ [quote]) = .ok (value, []) := by
  have plain : quote ≠ '\\' := by rcases isQuote with rfl | rfl <;> decide
  have itself : unescape quote = quote := by rcases isQuote with rfl | rfl <;> rfl
  induction quoted with
  | nil => exact cutText_end plain nofun
  | backslash _ ih =>
    rw [List.cons_append, List.cons_append, cutText_backslash, ih]
    rfl
  | doubled _ ih =>
    rw [List.cons_append, List.cons_append, cutText_doubled plain, ih]
    rfl
  | escaped _ ih =>
    rw [List.cons_append, List.cons_append, cutText_backslash, ih, itself]
    rfl
  | raw plain other _ ih =>
    rw [List.cons_append, cutText_raw plain other, ih]
    rfl

/-! ## Words and symbols -/

section words

variable {c : Char}

theorem not_startsWord_of_isDigit (digit : isDigit c) : startsWord c = false := by
  have all : ∀ n ∈ List.range' '0'.toNat 10, startsWord (Char.ofNat n) = false := by
    decide
  rw [← Char.ofNat_toNat c]
  refine all _ (List.mem_range'_1.2 ?_)
  rw [isDigit, Bool.and_eq_true, decide_eq_true_eq, decide_eq_true_eq] at digit
  exact ⟨digit.1, Nat.lt_succ_of_le digit.2⟩

theorem not_startsWord_of_isBlank (blank : isBlank c) : startsWord c = false := by
  have ends := Lexeme.continuesWord_of_isBlank blank
  rw [continuesWord, Text.isAlphanumeric, Bool.or_eq_false_iff, Bool.or_eq_false_iff] at ends
  rw [startsWord, ends.1.1, ends.2]
  rfl

theorem cut_word_of_all {cs : List Char} (starts : startsWord c)
    (continues : ∀ d ∈ cs, continuesWord d) :
    cut c cs = .ok (.word (String.ofList (c :: cs)), []) := by
  have other : ¬isDigit c := by
    intro digit
    rw [not_startsWord_of_isDigit digit] at starts
    cases starts
  have plain : ¬(c = '"' ∨ c = '\'') := by
    rintro (rfl | rfl) <;> exact absurd starts (by decide)
  rw [cut_word other plain starts, List.takeWhile_eq_self_iff.2 continues,
    List.dropWhile_eq_nil_iff.2 continues]

/-- No symbol begins like white space or another kind of lexeme. -/
theorem symbols_begin (mem : c ∈ "()[]\x7b\x7d,.?:=!&|<>+-*/%".toList) :
    ¬isBlank c ∧ ¬isDigit c ∧ ¬(c = '"' ∨ c = '\'') ∧ ¬startsWord c := by
  have all : "()[]\x7b\x7d,.?:=!&|<>+-*/%".toList.all fun c =>
      ¬isBlank c ∧ ¬isDigit c ∧ ¬(c = '"' ∨ c = '\'') ∧ ¬startsWord c := by
    decide
  exact of_decide_eq_true (List.all_eq_true.1 all c mem)

theorem cutSymbol_spelling (s : Symbol) : ∀ spelling ∈ s.spellings, ∃ c cs, spelling = c :: cs ∧
    c ∈ "()[]\x7b\x7d,.?:=!&|<>+-*/%".toList ∧ cutSymbol c cs = .ok (.symbol s, []) := by
  cases s <;> simp only [Symbol.spellings, List.forall_mem_cons, List.not_mem_nil, false_imp_iff,
    implies_true, and_true]
  case equal | notEqual =>
    exact ⟨⟨_, _, rfl, by decide, rfl⟩, ⟨_, _, rfl, by decide, rfl⟩⟩
  all_goals exact ⟨_, _, rfl, by decide, rfl⟩

end words

/-! ## Lexemes -/

variable {l : Lexeme} {cs : List Char}

theorem cut_of_spells (spells : Spells l cs) :
    ∃ c ds, cs = c :: ds ∧ ¬isBlank c ∧ cut c ds = .ok (l, []) := by
  cases spells with
  | @int n zeros suffix small integral =>
    cases same : List.replicate zeros '0' ++ Nat.toDigits 10 n with
    | nil => exact absurd (List.append_eq_nil_iff.1 same).2 Nat.toDigits_ne_nil
    | cons d ds =>
      have digit : isDigit d := isDigit_of_mem_digits (by rw [same]; exact List.mem_cons_self)
      refine ⟨d, ds ++ suffix, rfl, fun blank => ?_, cut_int small integral same⟩
      rw [isDigit_of_isBlank blank] at digit
      cases digit
  | text isQuote quoted =>
    refine ⟨_, _, rfl, ?_, ?_⟩
    · rcases isQuote with rfl | rfl <;> decide
    · rw [cut_text isQuote, cutText_quoted isQuote quoted]
      rfl
  | word starts continues =>
    refine ⟨_, _, rfl, fun blank => ?_, cut_word_of_all starts continues⟩
    rw [not_startsWord_of_isBlank blank] at starts
    cases starts
  | @symbol s _ mem =>
    obtain ⟨c, ds, rfl, first, found⟩ := cutSymbol_spelling s _ mem
    obtain ⟨visible, digit, quote, word⟩ := symbols_begin first
    exact ⟨c, ds, rfl, visible, (cut_symbol digit quote word).trans found⟩

end Lexeme

namespace Token

open Lexeme (Opens Spells)

/-- The characters, which stand behind `pos` others, are the tokens written down with white space
around them, and at least one character of it between two of them. -/
inductive Written : (pos : Nat) → List Token → List Char → Prop
  | nil {pos} : Written pos [] []
  | blank {pos ts c cs} : isBlank c → Written (pos + 1) ts cs → Written pos ts (c :: cs)
  | lexeme {pos ts l cs rest} : Spells l cs → Opens rest → Written (pos + cs.length) ts rest →
    Written pos (⟨l, pos⟩ :: ts) (cs ++ rest)

theorem exists_written {ls : List Lexeme} (writable : ∀ l ∈ ls, l.Writable) (pos : Nat) :
    ∃ ts cs, ts.map lexeme = ls ∧ Written pos ts cs := by
  induction ls generalizing pos with
  | nil => exact ⟨[], [], rfl, .nil⟩
  | cons l ls ih =>
    obtain ⟨first, others⟩ := List.forall_mem_cons.1 writable
    obtain ⟨cs, spells⟩ := Lexeme.exists_spells first
    obtain ⟨ts, rest, rfl, written⟩ := ih others (pos + cs.length + 1)
    have opens : Opens (' ' :: rest) := by
      rintro _ ⟨⟩
      rfl
    exact ⟨_, _, rfl, .lexeme spells opens (.blank rfl written)⟩

theorem ofCharsAt_of_written {pos : Nat} {ts : List Token} {cs : List Char}
    (written : Written pos ts cs) : ofCharsAt pos cs = .ok ts := by
  induction written with
  | nil => rw [ofCharsAt]
  | blank blank _ ih => rw [ofCharsAt_blank blank, ih]
  | @lexeme pos ts l cs rest spells opens _ ih =>
    obtain ⟨c, ds, rfl, visible, found⟩ := Lexeme.cut_of_spells spells
    have width : (ds ++ rest).length + 1 - rest.length = (c :: ds).length := by
      rw [List.length_append, List.length_cons]
      omega
    rw [List.cons_append, ofCharsAt_lexeme visible (Lexeme.cut_before opens found), List.nil_append,
      width, ih]
    rfl

/-- All lexemes but reals can be written, and cutting a text into tokens undoes it, in whatever way
they are written. -/
theorem marks_written :
    (∀ ls : List Lexeme, (∀ l ∈ ls, l.Writable) →
      ∃ ts, ∃ text : String, ts.map lexeme = ls ∧ Written 0 ts text.toList) ∧
    ∀ ts (text : String), Written 0 ts text.toList →
      ofText text = .ok ts ∧ marks text = .ok (ts.map mark ++ [⟨none, text.length⟩]) := by
  constructor
  · intro ls writable
    obtain ⟨ts, cs, same, written⟩ := exists_written writable 0
    exact ⟨ts, String.ofList cs, same, by rwa [String.toList_ofList]⟩
  · intro ts text written
    have found : ofText text = .ok ts := ofCharsAt_of_written written
    refine ⟨found, ?_⟩
    rw [marks_eq, found]
    rfl

theorem marks_written_quotes : marks "007L\t'a''\\\\\"\\'' <> x1 " =
    .ok [⟨some (.int 7), 0⟩, ⟨some (.text "a'\\\"'"), 5⟩, ⟨some (.symbol .notEqual), 16⟩,
      ⟨some (.word "x1"), 19⟩, ⟨none, 22⟩] := by
  have number : Spells (.int 7) "007L".toList :=
    @Spells.int 7 2 ['L'] (by decide) (by decide)
  have quoted : Spells (.text "a'\\\"'") "'a''\\\\\"\\''".toList :=
    .text (.inr rfl) (.raw (by decide) (by decide) (.doubled (.backslash (.raw (by decide)
      (by decide) (.escaped .nil)))))
  have symbol : Spells (.symbol .notEqual) "<>".toList := .symbol (by decide)
  have word : Spells (.word "x1") "x1".toList :=
    .word (by decide) (List.all_eq_true.1 (by decide))
  have opens {c : Char} {cs : List Char} (blank : isBlank c) : Opens (c :: cs) := by
    rintro _ ⟨⟩
    exact blank
  have written : Written 0 [⟨.int 7, 0⟩, ⟨.text "a'\\\"'", 5⟩, ⟨.symbol .notEqual, 16⟩,
      ⟨.word "x1", 19⟩] ("007L".toList ++ '\t' :: ("'a''\\\\\"\\''".toList ++ ' ' ::
        ("<>".toList ++ ' ' :: ("x1".toList ++ [' '])))) :=
    .lexeme number (opens rfl) (.blank rfl (.lexeme quoted (opens rfl) (.blank rfl
      (.lexeme symbol (opens rfl) (.blank rfl (.lexeme word (opens rfl) (.blank rfl .nil)))))))
  exact (marks_written.2 _ "007L\t'a''\\\\\"\\'' <> x1 " written).2

end Token

end LootFilter
