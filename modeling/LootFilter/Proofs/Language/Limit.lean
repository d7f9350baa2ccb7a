import LootFilter.Proofs.Language.Literal

/-!
# How deep texts may nest

Brackets, prefix operators, links of a chain, members, calls and choices each use up one level for
every time that they are nested, so 63 of them are read and 64 are not. A logical operator uses up
no level, so any number of operands can be joined.
-/

namespace LootFilter

open ExprParser

/-! ## Brackets -/

/-- Lexemes in a number of brackets. -/
def Lexeme.inBrackets : Nat → List Lexeme → List Lexeme
  | 0, ls => ls
  | m + 1, ls => .symbol .leftParen :: inBrackets m ls ++ [.symbol .rightParen]

open Lexeme (inBrackets)

namespace Expr

section brackets

variable {e : Expr} (writable : e.AllWritable)

include writable

/-- Each bracket is read with one level less than what it stands in. -/
theorem arrives_brackets {m depth levels : Nat} {ts rest : List Token} (stop : Nat)
    (fewer : levels ≤ depth) (written : Token.Write ts (inBrackets m e.lexemes))
    (ends : Tier.whole.Ends rest) :
    Arrives (outcome (expression depth stop levels (ts ++ rest))) (m + e.levels < levels)
      (fun e' => e'.unplaced = e.unplaced) fun e' => .ok (e', rest) := by
  induction m generalizing depth levels ts rest with
  | zero =>
    rw [inBrackets, ← lexemesAt_whole] at written
    have read := (reads writable).arrives stop fewer written ends
    rw [levelsAt_whole] at read
    rw [Nat.zero_add]
    exact read
  | succ m ih =>
    obtain ⟨pos, more, rfl, within⟩ := Token.Write.cons_symbol written rfl
    obtain ⟨inner, last, rfl, whole, ending⟩ := Token.Write.append_iff.1 within
    obtain ⟨pos', _, rfl, ⟨⟩⟩ := Token.Write.cons_symbol ending rfl
    cases levels with
    | zero =>
      rw [outcome_expression_full]
      exact .full (Nat.not_lt_zero _)
    | succ left =>
      obtain ⟨depth, rfl⟩ := Nat.exists_eq_add_of_le' (Nat.zero_lt_of_lt fewer)
      have closing : Tier.whole.Ends (⟨.symbol .rightParen, pos'⟩ :: rest) :=
        .closing (.inl rfl) rfl
      have read := ih (Nat.le_of_succ_le_succ fewer) whole closing
      have opening : ∀ token ∈ (⟨.symbol .leftParen, pos⟩ ::
          (inner ++ ⟨.symbol .rightParen, pos'⟩ :: rest) : List Token).head?,
          unaryOp? token = none := by
        rintro _ ⟨⟩
        rfl
      have inner : Tier.primary ≠ .whole := nofun
      have whole := Tier.arrives_whole inner (fun _ => opening) (ends.mono (Nat.zero_le _))
        (Tier.arrives_bracket read)
      rw [List.cons_append, List.append_assoc]
      exact whole.iff (by omega)

theorem arrives_ofText {m : Nat} {text : String} {ts : List Token} (found : Token.ofText text = .ok ts)
    (written : Token.Write ts (inBrackets m e.lexemes)) :
    Arrives (ofText text) (m + e.levels < maxLevels) (fun e' => e'.unplaced = e.unplaced) .ok := by
  have read := arrives_brackets writable text.toList.length (Nat.le_refl maxLevels) written .nil
  rw [List.append_nil] at read
  rw [ofText, found]
  exact arrives_ofTokens read

end brackets

end Expr

/-! ## Nested constructs -/

/-- What is nested, brackets apart. -/
inductive Construct where
  | prefixes
  | links (c : Chain)
  | members
  | calls
  | choices

namespace Construct

/-- The tier at which a construct stands within itself. -/
def tier : Construct → Tier
  | prefixes => .prefixed
  | links c => .chain c
  | members => .postfixed
  | calls => .primary
  | choices => .choice

/-- How many links of its tier a construct has that is nested `n` times. -/
def linksOf : Construct → Nat → Nat
  | links _, n | members, n => n
  | prefixes, _ | calls, _ | choices, _ => 0

end Construct

namespace Expr

/-- `Nested k n ls e`: the lexemes `ls`, which make `e`, nest the construct `k` over plain names,
`n` times. -/
inductive Nested : Construct → Nat → List Lexeme → Expr → Prop
  | name {k : Construct} {x : String} : IsName x → Nested k 0 [.word x] (.name 0 x)
  | prefixed {n : Nat} {ls : List Lexeme} {e : Expr} (op : UnaryOp) : Nested .prefixes n ls e →
    Nested .prefixes (n + 1) (.symbol op.written :: ls) (.unary 0 op e)
  | link {n : Nat} {ls : List Lexeme} {e : Expr} {x : String} (op : BinaryOp) :
    Nested (.links op.chain) n ls e → IsName x →
    Nested (.links op.chain) (n + 1) (ls ++ [.symbol op.written, .word x])
      (.binary op e (.name 0 x))
  | member {n : Nat} {ls : List Lexeme} {e : Expr} {x : String} : Nested .members n ls e →
    IsName x → Nested .members (n + 1) (ls ++ [.symbol .dot, .word x]) (.member e x)
  | call {n : Nat} {ls : List Lexeme} {e : Expr} {f : String} : IsName f → Nested .calls n ls e →
    Nested .calls (n + 1) (.word f :: .symbol .leftParen :: ls ++ [.symbol .rightParen])
      (.call 0 f [.plain e])
  | choice {n : Nat} {ls : List Lexeme} {e : Expr} {c x : String} : IsName c → IsName x →
    Nested .choices n ls e →
    Nested .choices (n + 1) (.word c :: .symbol .question :: .word x :: .symbol .colon :: ls)
      (.choice (.name 0 c) (.name 0 x) e)

/-- What the expression is whose lexemes nest the construct. It takes a level each time. -/
structure Spends (k : Construct) (n : Nat) (ls : List Lexeme) (e : Expr) : Prop where
  writable : e.AllWritable
  within : k.tier.rank ≤ e.tier.rank
  lexemes : e.lexemes = ls
  levels : e.levels = n
  links : e.linksAt k.tier = k.linksOf n
  unplaced : e.unplaced = e

section names

variable {x : String}

theorem IsName.allWritable (h : IsName x) : (Expr.name 0 x).AllWritable :=
  .of_parts h.writable (List.forall_mem_nil _)

theorem lexemesAt_name (t : Tier) : (Expr.name 0 x).lexemesAt t = [.word x] :=
  lexemesAt_of_le t.rank_le_primary

theorem levelsAt_name {t : Tier} (inner : t ≠ .whole) : (Expr.name 0 x).levelsAt t = 0 :=
  levelsAt_of_le t.rank_le_primary inner

end names

namespace Spends

variable {k : Construct} {n : Nat} {ls : List Lexeme} {e : Expr} {x : String}

theorem lexemesAt (h : Spends k n ls e) : e.lexemesAt k.tier = ls :=
  (lexemesAt_of_le h.within).trans h.lexemes

theorem levelsAt (h : Spends k n ls e) : e.levelsAt k.tier = n := by
  have inner : k.tier ≠ .whole := by cases k <;> exact nofun
  exact (levelsAt_of_le h.within inner).trans h.levels

theorem name (h : IsName x) : Spends k 0 [.word x] (.name 0 x) where
  writable := h.allWritable
  within := Tier.rank_le_primary _
  lexemes := rfl
  levels := rfl
  links := by cases k <;> rfl
  unplaced := rfl

theorem prefixed {op : UnaryOp} (h : Spends .prefixes n ls e)
    (self : (Expr.unary 0 op e).IsWritable) :
    Spends .prefixes (n + 1) (.symbol op.written :: ls) (.unary 0 op e) where
  writable := .of_parts self (List.forall_mem_singleton.2 h.writable)
  within := Nat.le_refl _
  lexemes := congrArg (_ :: ·) h.lexemesAt
  levels := congrArg (· + 1) h.levelsAt
  links := rfl
  unplaced := congrArg _ h.unplaced

theorem link (op : BinaryOp) (h : Spends (.links op.chain) n ls e) (isName : IsName x) :
    Spends (.links op.chain) (n + 1) (ls ++ [.symbol op.written, .word x])
      (.binary op e (.name 0 x)) where
  writable := .of_parts trivial
    (List.forall_mem_cons.2 ⟨h.writable, List.forall_mem_singleton.2 isName.allWritable⟩)
  within := Nat.le_refl _
  lexemes := by
    change e.lexemesAt (.chain op.chain) ++ _ :: (Expr.name 0 x).lexemesAt _ = _
    rw [lexemesAt_name, show e.lexemesAt (.chain op.chain) = ls from h.lexemesAt]
  levels := by
    change max (e.levelsAt (.chain op.chain))
      (e.linksAt (.chain op.chain) + 1 + (Expr.name 0 x).levelsAt _) = _
    rw [levelsAt_name (Tier.tighter_ne_whole _),
      show e.levelsAt (.chain op.chain) = n from h.levelsAt,
      show e.linksAt (.chain op.chain) = n from h.links]
    omega
  links := by
    refine (if_pos rfl).trans ?_
    exact congrArg (· + 1) h.links
  unplaced := congrArg (Expr.binary op · _) h.unplaced

theorem member (h : Spends .members n ls e) :
    Spends .members (n + 1) (ls ++ [.symbol .dot, .word x]) (.member e x) where
  writable := .of_parts trivial (List.forall_mem_singleton.2 h.writable)
  within := Nat.le_refl _
  lexemes := congrArg (· ++ _) h.lexemesAt
  levels := by
    change max (e.levelsAt .postfixed) (e.linksAt .postfixed + 1) = _
    rw [show e.levelsAt .postfixed = n from h.levelsAt,
      show e.linksAt .postfixed = n from h.links]
    omega
  links := congrArg (· + 1) h.links
  unplaced := congrArg (Expr.member · _) h.unplaced

theorem call {f : String} (isName : IsName f) (h : Spends .calls n ls e) :
    Spends .calls (n + 1) (.word f :: .symbol .leftParen :: ls ++ [.symbol .rightParen])
      (.call 0 f [.plain e]) where
  writable := .of_parts isName.writable (List.forall_mem_singleton.2 h.writable)
  within := Nat.le_refl _
  lexemes := by
    change .word f :: .symbol .leftParen :: (e.lexemes ++ []) ++ _ = _
    rw [List.append_nil, h.lexemes]
  levels := by
    change max (e.levels + 1) 0 = _
    rw [h.levels, Nat.max_zero]
  links := rfl
  unplaced := congrArg (fun e => Expr.call 0 f [.plain e]) h.unplaced

theorem choice {c : String} (isName : IsName c) (isName' : IsName x) (h : Spends .choices n ls e) :
    Spends .choices (n + 1) (.word c :: .symbol .question :: .word x :: .symbol .colon :: ls)
      (.choice (.name 0 c) (.name 0 x) e) where
  writable := .of_parts trivial (List.forall_mem_cons.2 ⟨isName.allWritable,
    List.forall_mem_cons.2 ⟨isName'.allWritable, List.forall_mem_singleton.2 h.writable⟩⟩)
  within := Nat.le_refl _
  lexemes := by
    change .word c :: .symbol .question :: .word x :: .symbol .colon :: e.lexemes = _
    rw [h.lexemes]
  levels := by
    change max ((Expr.name 0 c).levelsAt (.logical .or)) (max (0 + 1) (e.levels + 1)) = _
    rw [levelsAt_name (t := .logical .or) nofun, h.levels]
    omega
  links := rfl
  unplaced := congrArg (Expr.choice _ _ ·) h.unplaced

end Spends

section nested

variable {k : Construct} {n m : Nat} {ls : List Lexeme} {e : Expr} {text : String}
  {ts : List Token}

theorem Nested.spends (h : Nested k n ls e) : Spends k n ls e := by
  induction h with
  | name isName => exact .name isName
  | @prefixed n ls e op nested ih =>
    -- A minus in front of a number would belong to the number.
    have self : (Expr.unary 0 op e).IsWritable := by
      cases nested <;> cases op <;> trivial
    exact ih.prefixed self
  | link op _ isName ih => exact ih.link op isName
  | member _ _ ih => exact ih.member
  | call isName _ ih => exact ih.call isName
  | choice isName isName' _ ih => exact ih.choice isName isName'

theorem exists_nested (k : Construct) (n : Nat) : ∃ ls e, Nested k n ls e := by
  have isName : IsName "a" := by decide +kernel
  induction n with
  | zero => exact ⟨_, _, .name isName⟩
  | succ n ih =>
    obtain ⟨ls, e, nested⟩ := ih
    cases k with
    | prefixes => exact ⟨_, _, nested.prefixed .not⟩
    | links c =>
      obtain ⟨op, rfl⟩ : ∃ op : BinaryOp, op.chain = c := by
        cases c with
        | equality => exact ⟨.compare .eq, rfl⟩
        | order => exact ⟨.compare .lt, rfl⟩
        | sum => exact ⟨.compute .add, rfl⟩
        | product => exact ⟨.compute .mul, rfl⟩
      exact ⟨_, _, nested.link op isName⟩
    | members => exact ⟨_, _, nested.member isName⟩
    | calls => exact ⟨_, _, .call isName nested⟩
    | choices => exact ⟨_, _, .choice isName isName nested⟩

theorem Nested.lexemes_writable (h : Nested k n ls e) : ∀ l ∈ ls, l.Writable := by
  induction h with
  | name isName => exact List.forall_mem_singleton.2 isName.word
  | prefixed _ _ ih => exact List.forall_mem_cons.2 ⟨trivial, ih⟩
  | link _ _ isName ih | member _ isName ih =>
    exact List.forall_mem_append.2 ⟨ih, List.forall_mem_cons.2
      ⟨trivial, List.forall_mem_singleton.2 isName.word⟩⟩
  | call isName _ ih =>
    exact List.forall_mem_cons.2 ⟨isName.word, List.forall_mem_cons.2
      ⟨trivial, List.forall_mem_append.2 ⟨ih, List.forall_mem_singleton.2 trivial⟩⟩⟩
  | choice isName isName' _ ih =>
    exact List.forall_mem_cons.2 ⟨isName.word, List.forall_mem_cons.2 ⟨trivial,
      List.forall_mem_cons.2 ⟨isName'.word, List.forall_mem_cons.2 ⟨trivial, ih⟩⟩⟩⟩

end nested

/-! ## Operands of a logical operator -/

section operands

variable {op : LogicalOp} {x : String} {names : List String}

/-- Names that a logical operator joins. -/
def joinedNames (op : LogicalOp) (x : String) (names : List String) : Expr :=
  .logical op (.name 0 x) (names.map (.name 0))

theorem lexemes_joinedNames : (joinedNames op x names).lexemes =
    separated op.written ((x :: names).map fun name => [.word name]) := by
  change separated op.written ((Expr.name 0 x).lexemesAt _ :: itemLexemes (names.map (.name 0)) _) = _
  rw [lexemesAt_name, itemLexemes_eq_map, List.map_map, List.map_cons]
  congr 2
  exact List.map_congr_left fun name _ => lexemesAt_name _

theorem levels_joinedNames : (joinedNames op x names).levels = 0 := by
  have inner : (Tier.logical op).tighter ≠ .whole := Tier.tighter_ne_whole _
  change max ((Expr.name 0 x).levelsAt _) (itemLevels (names.map (.name 0)) _) = 0
  rw [levelsAt_name inner, Nat.zero_max]
  refine Nat.le_zero.1 (itemLevels_le_iff.2 (List.forall_mem_map.2 fun name _ => ?_))
  exact Nat.le_of_eq (levelsAt_name inner)

theorem unplaced_joinedNames : (joinedNames op x names).unplaced = joinedNames op x names := by
  change Expr.logical op _ (unplacedItems (names.map (.name 0))) = _
  rw [unplacedItems_eq_map, List.map_map]
  rfl

theorem joinedNames_writable (several : names ≠ []) (areNames : ∀ name ∈ x :: names, IsName name) :
    (joinedNames op x names).AllWritable := by
  obtain ⟨first, others⟩ := List.forall_mem_cons.1 areNames
  refine .of_parts (mt List.map_eq_nil_iff.1 several) (List.forall_mem_cons.2 ⟨first.allWritable, ?_⟩)
  exact List.forall_mem_map.2 fun name mem => (others name mem).allWritable

theorem separated_writable {s : Symbol} {ls : List (List Lexeme)}
    (writable : ∀ part ∈ ls, ∀ l ∈ part, l.Writable) : ∀ l ∈ separated s ls, l.Writable := by
  cases ls with
  | nil => exact List.forall_mem_nil _
  | cons first rest =>
    obtain ⟨begins, others⟩ := List.forall_mem_cons.1 writable
    refine List.forall_mem_append.2 ⟨begins, fun l mem => ?_⟩
    obtain ⟨part, isPart, mem⟩ := List.mem_flatMap.1 mem
    exact List.forall_mem_cons.2 ⟨trivial, others part isPart⟩ l mem

end operands

end Expr

/-! ## Texts -/

theorem Lexeme.inBrackets_writable {ls : List Lexeme} (writable : ∀ l ∈ ls, l.Writable) (m : Nat) :
    ∀ l ∈ inBrackets m ls, l.Writable := by
  induction m with
  | zero => exact writable
  | succ m ih =>
    exact List.forall_mem_cons.2 ⟨trivial, List.forall_mem_append.2
      ⟨ih, List.forall_mem_singleton.2 trivial⟩⟩

theorem Token.write_lexemes (ts : List Token) : Token.Write ts (ts.map lexeme) := by
  refine List.forall₂_map_right_iff.2 (List.forall₂_same.2 fun token _ => ?_)
  obtain ⟨lexeme, pos⟩ := token
  cases lexeme with
  | symbol => exact .inl rfl
  | int | real | text | word => rfl

theorem Token.exists_ofText {ls : List Lexeme} (writable : ∀ l ∈ ls, l.Writable) :
    ∃ text ts, Token.ofText text = .ok ts ∧ Token.Write ts ls := by
  obtain ⟨ts, cs, rfl, written⟩ := exists_written writable 0
  refine ⟨String.ofList cs, ts, ?_, write_lexemes ts⟩
  rw [ofText, String.toList_ofList, ofCharsAt_of_written written]

namespace Expr

/-- The lexemes, which some text has, take a number of levels below that of the whole: the texts are
read as the expression, up to positions, just if so many levels are left, and are too deep
otherwise. -/
structure Takes (levels : Nat) (ls : List Lexeme) (e : Expr) : Prop where
  written : ∃ text ts, Token.ofText text = .ok ts ∧ Token.Write ts ls
  fits : ∀ text ts, Token.ofText text = .ok ts → Token.Write ts ls → levels ≤ maxLevels - 1 →
    ∃ e', ofText text = .ok e' ∧ e'.unplaced = e
  exceeds : ∀ text ts, Token.ofText text = .ok ts → Token.Write ts ls → maxLevels - 1 < levels →
    ∃ pos, ofText text = .error ⟨.nestedTooDeeply, pos⟩

theorem takes {m : Nat} {e : Expr} {ls : List Lexeme} (writable : e.AllWritable)
    (same : e.lexemes = ls) (spelled : ∀ l ∈ ls, l.Writable) (unplaced : e.unplaced = e) :
    Takes (m + e.levels) (inBrackets m ls) e := by
  subst same
  constructor
  · exact Token.exists_ofText (Lexeme.inBrackets_writable spelled m)
  · intro text ts found written fits
    obtain ⟨e', same, read⟩ := (arrives_ofText writable found written).reads
      (Nat.lt_of_le_of_lt fits (by decide))
    exact ⟨e', read, same.trans unplaced⟩
  · intro text ts found written exceeds
    exact (arrives_ofText writable found written).fails (Nat.not_lt.2 (Nat.succ_le_of_lt exceeds))

/-- Every construct, which may be nested any number of times, takes a level for each time, and so
does every bracket around it or around a plain name. Operands of a logical operator take none,
however many they are. -/
theorem takes_nesting :
    (∀ k n, ∃ ls e, Nested k n ls e) ∧
    (∀ k n ls e, Nested k n ls e → ∀ m, Takes (m + n) (inBrackets m ls) e) ∧
    ∀ op x names, names ≠ [] → (∀ name ∈ x :: names, IsName name) → ∀ m,
      Takes m (inBrackets m (separated op.written ((x :: names).map fun name => [.word name])))
        (.logical op (.name 0 x) (names.map (.name 0))) := by
  refine ⟨exists_nested, ?_, ?_⟩
  · intro k n ls e nested m
    obtain ⟨writable, -, same, levels, -, unplaced⟩ := nested.spends
    rw [← levels]
    exact takes writable same nested.lexemes_writable unplaced
  · intro op x names several areNames m
    have spelled : ∀ part ∈ (x :: names).map fun name => [Lexeme.word name],
        ∀ l ∈ part, l.Writable :=
      List.forall_mem_map.2 fun name mem => List.forall_mem_singleton.2 (areNames name mem).word
    have places : (joinedNames op x names).unplaced = joinedNames op x names := unplaced_joinedNames
    have flat := takes (m := m) (joinedNames_writable several areNames) lexemes_joinedNames
      (separated_writable spelled) places
    rwa [levels_joinedNames] at flat

theorem takes_nesting_mixed :
    (∃ e, ofText "( not - a )" = .ok e ∧
      e.unplaced = .unary 0 .not (.unary 0 .negate (.name 0 "a"))) ∧
    ∃ e, ofText "a or b || c" = .ok e ∧
      e.unplaced = .logical .or (.name 0 "a") [.name 0 "b", .name 0 "c"] := by
  have opens {c : Char} {cs : List Char} (blank : Text.isBlank c) : Lexeme.Opens (c :: cs) := by
    rintro _ ⟨⟩
    exact blank
  have word {c : Char} {cs : List Char} (starts : Lexeme.startsWord c)
      (continues : cs.all Lexeme.continuesWord) :
      Lexeme.Spells (.word (String.ofList (c :: cs))) (c :: cs) :=
    .word starts (List.all_eq_true.1 continues)
  have areNames : ∀ name ∈ ["a", "b", "c"], IsName name := by decide +kernel
  constructor
  · have nested : Nested .prefixes 2 [.symbol .bang, .symbol .minus, .word "a"]
        (.unary 0 .not (.unary 0 .negate (.name 0 "a"))) :=
      .prefixed .not (.prefixed .negate (.name (areNames "a" (by decide))))
    have spelled : Token.Written 0 [⟨.symbol .leftParen, 0⟩, ⟨.word "not", 2⟩,
        ⟨.symbol .minus, 6⟩, ⟨.word "a", 8⟩, ⟨.symbol .rightParen, 10⟩]
        ("(".toList ++ ' ' :: ("not".toList ++ ' ' :: ("-".toList ++ ' ' :: ("a".toList ++
          ' ' :: (")".toList ++ []))))) :=
      .lexeme (.symbol (by decide)) (opens rfl) (.blank rfl (.lexeme (word (by decide) (by decide))
        (opens rfl) (.blank rfl (.lexeme (.symbol (by decide)) (opens rfl) (.blank rfl (.lexeme
          (word (by decide) (by decide)) (opens rfl) (.blank rfl (.lexeme (.symbol (by decide))
            nofun .nil))))))))
    have found : Token.ofText "( not - a )" = _ := Token.ofCharsAt_of_written spelled
    have keyword : isKeyword "not" (.word "not") := by decide +kernel
    refine (takes_nesting.2.1 _ _ _ _ nested 1).fits _ _ found ?_ (by decide)
    exact .cons (.inl rfl) (.cons (.inr ⟨_, rfl, keyword⟩) (.cons (.inl rfl) (.cons rfl
      (.cons (.inl rfl) .nil))))
  · have spelled : Token.Written 0 [⟨.word "a", 0⟩, ⟨.word "or", 2⟩, ⟨.word "b", 5⟩,
        ⟨.symbol .bars, 7⟩, ⟨.word "c", 10⟩]
        ("a".toList ++ ' ' :: ("or".toList ++ ' ' :: ("b".toList ++ ' ' :: ("||".toList ++
          ' ' :: ("c".toList ++ []))))) :=
      .lexeme (word (by decide) (by decide)) (opens rfl) (.blank rfl (.lexeme
        (word (by decide) (by decide)) (opens rfl) (.blank rfl (.lexeme
          (word (by decide) (by decide)) (opens rfl) (.blank rfl (.lexeme (.symbol (by decide))
            (opens rfl) (.blank rfl (.lexeme (word (by decide) (by decide)) nofun .nil))))))))
    have found : Token.ofText "a or b || c" = _ := Token.ofCharsAt_of_written spelled
    have keyword : isKeyword "or" (.word "or") := by decide +kernel
    refine (takes_nesting.2.2 .or "a" ["b", "c"] nofun areNames 0).fits _ _ found ?_ (by decide)
    exact .cons rfl (.cons (.inr ⟨_, rfl, keyword⟩) (.cons rfl (.cons (.inl rfl) (.cons rfl .nil))))

end Expr

end LootFilter
