import LootFilter.Proofs.Decimal.Negation
import LootFilter.Proofs.Language.Place

/-!
# Reading what was written

Reading the lexemes of an expression gives the expression back, up to its positions, if the levels
that this takes are not more than there are, and otherwise fails for this reason.
-/

namespace LootFilter

open ExprParser

/-! ## Lists -/

section lists

variable {α : Type} {item : (ts : List Token) → Except CompileError (Parsed Token α ts.length)}
  {close : Symbol} {stop : Nat} {rest ts : List Token}

/-- Whether an item of a list is read in front of a comma and of the end of the list. -/
structure ReadsItem (item : (ts : List Token) → Except CompileError (Parsed Token α ts.length))
    (close : Symbol) (lexemes : List Lexeme) (fits : Prop) (good : α → Prop) : Prop where
  first : ∀ ts, Token.Write ts lexemes → ∃ token more, ts = token :: more ∧
    token.lexeme ≠ .symbol close
  reads : ∀ ts s pos rest, s = .comma ∨ s = close → Token.Write ts lexemes →
    Arrives (outcome (item (ts ++ ⟨.symbol s, pos⟩ :: rest))) fits good
      fun a => .ok (a, ⟨.symbol s, pos⟩ :: rest)

variable {γ : Type} {lexemes : γ → List Lexeme} {fits : γ → Prop} {good : γ → α → Prop} {pos : Nat}

theorem arrives_items {x : γ} {xs : List γ} (notComma : close ≠ .comma)
    (each : ∀ z ∈ x :: xs, ReadsItem item close (lexemes z) (fits z) (good z))
    (written : Token.Write ts (Expr.separated .comma ((x :: xs).map lexemes))) :
    Arrives (outcome (items item close stop (ts ++ ⟨.symbol close, pos⟩ :: rest)))
      (∀ z ∈ x :: xs, fits z) (fun read => List.Forall₂ good (x :: xs) read)
      fun read => .ok (read, rest) := by
  induction xs generalizing x ts with
  | nil =>
    rw [List.map_singleton, Expr.separated, List.flatMap_nil, List.append_nil] at written
    have first := (each x List.mem_cons_self).reads ts close pos rest (.inr rfl) written
    have ends : behind? .comma (⟨.symbol close, pos⟩ :: rest) = none := by
      refine behind?_eq_none ?_
      rintro t ⟨⟩ same
      exact notComma (Lexeme.symbol.inj same)
    rw [outcome_items]
    refine (first.bind.weaken fun a ok => ⟨[a], .cons ok .nil, ?_⟩).iff
      List.forall_mem_singleton.symm
    dsimp only
    rw [ends, symbol_self]
    rfl
  | cons y ys ih =>
    rw [List.map_cons, List.map_cons, Expr.separated, List.flatMap_cons,
      List.cons_append] at written
    obtain ⟨front, back, rfl, first, others⟩ := Token.Write.append_iff.1 written
    obtain ⟨p, more, rfl, remaining⟩ := Token.Write.cons_symbol others rfl
    have one := (each x List.mem_cons_self).reads front .comma p
      (more ++ ⟨.symbol close, pos⟩ :: rest) (.inl rfl) first
    have tail := ih (fun z mem => each z (List.mem_cons_of_mem _ mem)) remaining
    have onwards (a : α) (ok : good x a) :
        Arrives ((fun read => (a :: read.1, read.2)) <$>
            outcome (items item close stop (more ++ ⟨.symbol close, pos⟩ :: rest)))
          (∀ z ∈ y :: ys, fits z) (fun read => List.Forall₂ good (x :: y :: ys) read)
          fun read => .ok (read, rest) :=
      tail.map.weaken fun read oks => ⟨a :: read, .cons ok oks, rfl⟩
    rw [outcome_items, List.append_assoc, List.cons_append]
    refine (one.bind.trans fun a ok => ?_).iff List.forall_mem_cons.symm
    dsimp only
    rw [behind?_self]
    exact onwards a ok

theorem arrives_itemsOrNone {xs : List γ} (notComma : close ≠ .comma)
    (plain : close.keyword? = none)
    (each : ∀ x ∈ xs, ReadsItem item close (lexemes x) (fits x) (good x))
    (written : Token.Write ts (Expr.separated .comma (xs.map lexemes) ++ [.symbol close])) :
    Arrives (outcome (itemsOrNone item close stop (ts ++ rest))) (∀ x ∈ xs, fits x)
      (fun read => List.Forall₂ good xs read) fun read => .ok (read, rest) := by
  obtain ⟨inner, last, rfl, list, ending⟩ := Token.Write.append_iff.1 written
  obtain ⟨pos, _, rfl, ⟨⟩⟩ := Token.Write.cons_symbol ending plain
  rw [List.append_assoc, List.singleton_append, outcome_itemsOrNone]
  cases xs with
  | nil =>
    cases list
    rw [List.nil_append, behind?_self]
    exact ⟨fun _ => ⟨[], .nil, rfl⟩, fun no => absurd (List.forall_mem_nil _) no⟩
  | cons x xs =>
    obtain ⟨front, back, rfl, first, -⟩ := Token.Write.append_iff.1 list
    obtain ⟨token, more, rfl, notClose⟩ := (each x List.mem_cons_self).first front first
    have starts : behind? close (token :: more ++ back ++ ⟨.symbol close, pos⟩ :: rest) = none := by
      refine behind?_eq_none ?_
      rintro t ⟨⟩
      exact notClose
    rw [starts]
    exact arrives_items notComma each list

theorem map_eq_of_forall₂ {β δ : Type} {f : β → δ} {xs ys : List β}
    (h : List.Forall₂ (fun x y => f y = f x) xs ys) : ys.map f = xs.map f := by
  induction h with
  | nil => rfl
  | cons same _ ih => rw [List.map_cons, List.map_cons, same, ih]

end lists

namespace Expr

variable {depth stop levels : Nat} {t : Tier} {ts rest : List Token}

/-! ## Arguments and items -/

theorem Reads.argument {arg : Arg Expr} (h : arg.body.Reads depth .whole)
    (writable : arg.body.AllWritable) (stop : Nat) (fewer : levels ≤ depth) :
    ReadsItem (argument (expression depth) stop levels) .rightParen arg.lexemes
      (arg.body.levelsAt .whole ≤ levels) fun read => read.unplaced = arg.unplaced := by
  have ends (s : Symbol) (pos : Nat) (rest : List Token) (after : s = .comma ∨ s = .rightParen) :
      Tier.whole.Ends (⟨.symbol s, pos⟩ :: rest) := by
    refine .closing (.inl rfl) ?_
    rcases after with rfl | rfl <;> rfl
  cases arg with
  | plain e =>
    constructor
    · intro ts written
      obtain ⟨token, more, rfl, -, starts, -⟩ := written.begins (begins e writable)
      exact ⟨token, more, rfl, fun same => by simpa using starts _ same⟩
    · intro ts s pos rest after written
      have whole : Token.Write ts (e.lexemesAt .whole) := by rwa [lexemesAt_whole]
      have read := h.arrives stop fewer whole (ends s pos rest after)
      obtain ⟨token, more, rfl, -, -, second⟩ := written.begins (begins e writable)
      rw [outcome_argument_plain ?_]
      · exact read.map.weaken fun e' same => ⟨.plain e', congrArg Arg.plain same, rfl⟩
      · cases more with
        | nil =>
          rintro t ⟨⟩ same
          rcases after with rfl | rfl <;> cases same
        | cons => exact second
  | lambda p param body =>
    constructor
    · intro ts written
      obtain ⟨token, more, rfl, word, -⟩ := Token.Write.cons_iff.1 written
      refine ⟨token, more, rfl, fun same => ?_⟩
      rw [show token.lexeme = .word param from word] at same
      cases same
    · intro ts s pos rest after written
      obtain ⟨⟨_, p'⟩, more, rfl, ⟨⟩, others⟩ := Token.Write.cons_iff.1 written
      obtain ⟨q, inner, rfl, behind⟩ := Token.Write.cons_symbol others rfl
      have whole : Token.Write inner (body.lexemesAt .whole) := by rwa [lexemesAt_whole]
      have read := h.arrives stop fewer whole (ends s pos rest after)
      rw [List.cons_append, List.cons_append, outcome_argument_lambda]
      exact read.map.weaken fun e' same =>
        ⟨.lambda p' param e', congrArg (Arg.lambda 0 param) same, rfl⟩

theorem Reads.item {e : Expr} (h : e.Reads depth .whole) (writable : e.AllWritable) (stop : Nat)
    (fewer : levels ≤ depth) :
    ReadsItem (expression depth stop levels) .rightBrace (e.lexemesAt .whole)
      (e.levelsAt .whole ≤ levels) fun read => read.unplaced = e.unplaced := by
  constructor
  · intro ts written
    obtain ⟨token, more, rfl, -, starts, -⟩ := written.begins ((begins e writable).within _)
    exact ⟨token, more, rfl, fun same => by simpa using starts _ same⟩
  · intro ts s pos rest after written
    refine h.arrives stop fewer written (.closing (.inl rfl) ?_)
    rcases after with rfl | rfl <;> rfl

theorem arrives_arguments {args : List (Arg Expr)}
    (each : ∀ arg ∈ args, arg.body.Reads depth .whole)
    (writable : ∀ arg ∈ args, arg.body.AllWritable) (fewer : levels ≤ depth)
    (written : Token.Write ts (separated .comma (argLexemes args) ++ [.symbol .rightParen])) :
    Arrives (outcome (arguments (expression depth) stop levels (ts ++ rest)))
      (argLevels args ≤ levels) (fun read => unplacedArgs read = unplacedArgs args)
      fun read => .ok (read, rest) := by
  rw [argLexemes_eq_map] at written
  have item (arg : Arg Expr) (mem : arg ∈ args) :=
    (each arg mem).argument (writable arg mem) stop fewer
  refine ((arrives_itemsOrNone (by nofun) rfl item written).weaken fun read same =>
    ⟨read, ?_, rfl⟩).iff argLevels_le_iff.symm
  rw [unplacedArgs_eq_map, unplacedArgs_eq_map]
  exact map_eq_of_forall₂ same

/-! ## Constants, names and calls -/

theorem Reads.own {e : Expr} (h : ∀ stop levels ts rest, levels ≤ depth →
    Token.Write ts e.lexemes → e.tier.guard.Ends rest →
      Arrives (outcome (e.tier.parser (expression depth) stop levels (ts ++ rest)))
        (e.levels ≤ levels) (fun e' => e'.unplaced = e.unplaced)
        fun e' => e.tier.further (expression depth) stop (levels - e.links) e' rest) :
    e.Reads depth e.tier := by
  intro stop levels ts rest fewer written ends
  rw [lexemesAt_of_le (Nat.le_refl _)] at written
  rw [levelsAt_of_le (Nat.le_refl _) e.tier_ne_whole, linksAt_self]
  exact h stop levels ts rest fewer written ends

theorem Reads.leaf {e : Expr} {l : Lexeme} (tier : e.tier = .primary) (lexemes : e.lexemes = [l])
    (flat : e.levels = 0) (plain : ∀ token : Token, token.Writes l → token.lexeme = l)
    (read : ∀ expr stop levels pos rest, Tier.primary.Ends rest →
      ∃ e' : Expr, e'.unplaced = e.unplaced ∧
        outcome (primary expr stop levels (⟨l, pos⟩ :: rest)) = .ok (e', rest)) :
    e.Reads depth e.tier := by
  refine .own fun stop levels ts rest fewer written ends => ?_
  rw [lexemes] at written
  obtain ⟨⟨lexeme, pos⟩, none, rfl, writes, ⟨⟩⟩ := Token.Write.cons_iff.1 written
  obtain rfl := plain _ writes
  rw [tier] at ends ⊢
  obtain ⟨e', same, eq⟩ := read (expression depth) stop levels pos rest ends
  exact ⟨fun _ => ⟨e', same, eq⟩, fun no => absurd (flat ▸ Nat.zero_le _) no⟩

theorem Reads.call {pos : Nat} {s : String} {args : List (Arg Expr)}
    (each : ∀ arg ∈ args, arg.body.Reads depth .whole)
    (writable : (Expr.call pos s args).AllWritable) :
    (Expr.call pos s args).Reads depth .primary := by
  refine .own (e := .call pos s args) fun stop levels ts rest fewer written ends => ?_
  obtain ⟨⟨_, p⟩, more, rfl, ⟨⟩, others⟩ := Token.Write.cons_iff.1 written
  obtain ⟨q, inner, rfl, list⟩ := Token.Write.cons_symbol others rfl
  have parts (arg : Arg Expr) (mem : arg ∈ args) : arg.body.AllWritable :=
    writable.part (List.mem_map_of_mem mem)
  change Arrives (outcome (primary _ stop levels (_ :: _ :: (inner ++ rest)))) _ _ _
  rw [outcome_call writable.self.1]
  exact (arrives_arguments each parts fewer list).map.weaken fun read same =>
    ⟨.call p s read, congrArg (Expr.call 0 s) same, rfl⟩

theorem Reads.array {pos : Nat} {items : List Expr} (each : ∀ e ∈ items, e.Reads depth .whole)
    (writable : (Expr.array pos items).AllWritable) :
    (Expr.array pos items).Reads depth .primary := by
  refine .own (e := .array pos items) fun stop levels ts rest fewer written ends => ?_
  obtain ⟨⟨_, p⟩, _, rfl, ⟨⟩, typed⟩ := Token.Write.cons_iff.1 written
  obtain ⟨q, _, rfl, behind⟩ := Token.Write.cons_symbol typed rfl
  obtain ⟨q, _, rfl, braced⟩ := Token.Write.cons_symbol behind rfl
  obtain ⟨q, inner, rfl, list⟩ := Token.Write.cons_symbol braced rfl
  have item (e : Expr) (mem : e ∈ items) := (each e mem).item (writable.part mem) stop fewer
  rw [itemLexemes_eq_map] at list
  change Arrives (outcome (primary _ stop levels (_ :: _ :: _ :: _ :: (inner ++ rest)))) _ _ _
  rw [outcome_array]
  refine ((arrives_itemsOrNone (by nofun) rfl item list).map.weaken fun read same =>
    ⟨.array p read, ?_, rfl⟩).iff itemLevels_le_iff.symm
  rw [unplaced, unplaced, unplacedItems_eq_map, unplacedItems_eq_map, map_eq_of_forall₂ same]

/-! ## Members and indices -/

theorem Reads.suffix {e target : Expr} {s : Symbol} {suffix : List Lexeme} {within : Nat}
    (h : target.Reads depth .postfixed) (tier : e.tier = .postfixed)
    (lexemes : e.lexemes = target.lexemesAt .postfixed ++ .symbol s :: suffix)
    (links : e.links = target.linksAt .postfixed + 1)
    (deep : e.levels = max (target.levelsAt .postfixed) (target.linksAt .postfixed + 1 + within))
    (opens : s = .dot ∨ s = .leftBracket)
    (read : ∀ stop left target' pos ts rest, left ≤ depth → target'.unplaced = target.unplaced →
      Token.Write ts suffix → Tier.primary.Ends rest →
        Arrives (outcome (suffixes (expression depth) stop (left + 1) target'
            (⟨.symbol s, pos⟩ :: (ts ++ rest))))
          (within ≤ left) (fun e' => e'.unplaced = e.unplaced)
          fun e' => outcome (suffixes (expression depth) stop left e' rest)) :
    e.Reads depth e.tier := by
  refine .own fun stop levels ts rest fewer written ends => ?_
  rw [lexemes] at written
  obtain ⟨front, back, rfl, first, others⟩ := Token.Write.append_iff.1 written
  have notKeyword : s.keyword? = none := by rcases opens with rfl | rfl <;> rfl
  obtain ⟨pos, more, rfl, behind⟩ := Token.Write.cons_symbol others notKeyword
  have looser : Tier.primary.Ends (⟨.symbol s, pos⟩ :: (more ++ rest)) := by
    refine .cons (.inl rfl) ?_
    rcases opens with rfl | rfl <;> rintro _ ⟨⟩ <;> exact Nat.le_refl _
  rw [tier] at ends ⊢
  rw [links, deep, List.append_assoc]
  refine ((h stop levels front _ fewer first looser).trans fun target' same => ?_).iff
    Nat.max_le.symm
  cases has : levels - target.linksAt .postfixed with
  | zero =>
    change Arrives (outcome (suffixes _ stop 0 target' (⟨.symbol s, pos⟩ :: (more ++ rest)))) _ _ _
    rw [outcome_suffixes_full opens]
    exact .full (by omega)
  | succ left =>
    have onward := read stop left target' pos more rest (by omega) same behind ends
    have fewer : levels - (target.linksAt .postfixed + 1) = left := by omega
    rw [fewer]
    exact onward.iff (by omega)

theorem Reads.member {target : Expr} {s : String} (h : target.Reads depth .postfixed) :
    (Expr.member target s).Reads depth .postfixed := by
  have deep : (Expr.member target s).levels =
      max (target.levelsAt .postfixed) (target.linksAt .postfixed + 1 + 0) := rfl
  refine Reads.suffix (e := .member target s) h rfl rfl rfl deep (.inl rfl) ?_
  intro stop left target' pos ts rest fewer same written ends
  obtain ⟨⟨_, p⟩, none, rfl, ⟨⟩, ⟨⟩⟩ := Token.Write.cons_iff.1 written
  have noCall : behind? .leftParen rest = none :=
    behind?_eq_none (ends.lexeme_ne rfl (Nat.le_refl _))
  rw [List.singleton_append, outcome_suffixes_member noCall]
  exact ⟨fun _ => ⟨.member target' s, congrArg (Expr.member · s) same, rfl⟩,
    fun no => absurd (Nat.zero_le _) no⟩

theorem Reads.method {target : Expr} {s : String} {args : List (Arg Expr)}
    (h : target.Reads depth .postfixed) (each : ∀ arg ∈ args, arg.body.Reads depth .whole)
    (writable : (Expr.method target s args).AllWritable) :
    (Expr.method target s args).Reads depth .postfixed := by
  have lexemes : (Expr.method target s args).lexemes = target.lexemesAt .postfixed ++
      .symbol .dot :: .word s :: .symbol .leftParen ::
        (separated .comma (argLexemes args) ++ [.symbol .rightParen]) := by
    rw [Expr.lexemes, List.append_assoc]
    rfl
  refine Reads.suffix (e := .method target s args) h rfl lexemes rfl rfl (.inl rfl) ?_
  intro stop left target' pos ts rest fewer same written ends
  obtain ⟨⟨_, p⟩, _, rfl, ⟨⟩, called⟩ := Token.Write.cons_iff.1 written
  obtain ⟨q, inner, rfl, list⟩ := Token.Write.cons_symbol called rfl
  have parts (arg : Arg Expr) (mem : arg ∈ args) : arg.body.AllWritable :=
    writable.part (List.mem_cons_of_mem _ (List.mem_map_of_mem mem))
  rw [List.cons_append, List.cons_append, outcome_suffixes_method]
  refine (arrives_arguments each parts fewer list).bind.weaken fun read ok =>
    ⟨.method target' s read, ?_, rfl⟩
  rw [unplaced, unplaced, same, ok]

theorem Reads.index {target i : Expr} (h : target.Reads depth .postfixed)
    (inner : i.Reads depth .whole) : (Expr.index target i).Reads depth .postfixed := by
  have lexemes : (Expr.index target i).lexemes = target.lexemesAt .postfixed ++
      .symbol .leftBracket :: (i.lexemesAt .whole ++ [.symbol .rightBracket]) := by
    rw [Expr.lexemes, List.append_assoc, lexemesAt_whole]
    rfl
  have deep : (Expr.index target i).levels =
      max (target.levelsAt .postfixed) (target.linksAt .postfixed + 1 + i.levelsAt .whole) := by
    rw [levelsAt_whole]
    rfl
  refine Reads.suffix (e := .index target i) h rfl lexemes rfl deep (.inr rfl) ?_
  intro stop left target' pos ts rest fewer same written ends
  obtain ⟨front, back, rfl, whole, last⟩ := Token.Write.append_iff.1 written
  obtain ⟨q, _, rfl, ⟨⟩⟩ := Token.Write.cons_symbol last rfl
  rw [List.append_assoc, outcome_suffixes_index]
  refine (inner.arrives stop fewer whole (.closing (.inl rfl) rfl)).bind.weaken fun read ok =>
    ⟨.index target' read, ?_, ?_⟩
  · rw [unplaced, unplaced, same, ok]
  · change outcome (symbol .rightBracket stop (⟨.symbol .rightBracket, q⟩ :: rest)) >>= _ = _
    rw [symbol_self]
    rfl

/-! ## Operators in front -/

theorem unaryOp?_written {token : Token} {op : UnaryOp} (h : token.Writes (.symbol op.written)) :
    unaryOp? token = some op := by
  obtain ⟨lexeme, pos⟩ := token
  rcases h with h | ⟨keyword, mem, written⟩
  · obtain rfl : lexeme = .symbol op.written := h
    cases op <;> rfl
  · cases op with
    | negate => cases mem
    | not =>
      obtain rfl : "not" = keyword := Option.some.inj mem
      cases lexeme with
      | word => exact if_pos written
      | int | real | text | symbol => cases written

theorem unplaced_applyUnary (pos : Nat) (op : UnaryOp) (e : Expr) :
    (applyUnary pos op e).unplaced = applyUnary 0 op e.unplaced := by
  cases op <;> cases e <;> rfl

theorem applyUnary_of_isWritable {pos : Nat} {op : UnaryOp} {operand : Expr}
    (h : (Expr.unary pos op operand).IsWritable) :
    applyUnary pos op operand = .unary pos op operand := by
  cases op with
  | not => rfl
  | negate =>
    cases operand with
    | int | real => exact h.elim
    | _ => rfl

theorem Reads.prefixed {e operand : Expr} (op : UnaryOp) (h : operand.Reads depth .prefixed)
    (tier : e.tier = .prefixed)
    (lexemes : e.lexemes = .symbol op.written :: operand.lexemesAt .prefixed)
    (deep : e.levels = operand.levelsAt .prefixed + 1)
    (applied : applyUnary 0 op operand.unplaced = e.unplaced) : e.Reads depth e.tier := by
  refine .own fun stop levels ts rest fewer written ends => ?_
  rw [lexemes] at written
  obtain ⟨token, more, rfl, operator, behind⟩ := Token.Write.cons_iff.1 written
  have isOperator := unaryOp?_written operator
  rw [tier] at ends ⊢
  rw [deep]
  change Arrives (outcome (ExprParser.prefixed _ stop levels (token :: (more ++ rest)))) _ _ _
  cases levels with
  | zero =>
    rw [outcome_prefixed_full isOperator]
    exact .full (Nat.not_succ_le_zero _)
  | succ left =>
    rw [outcome_prefixed_operator isOperator]
    have read := h.arrives stop (Nat.le_of_succ_le fewer) behind ends
    refine (read.map.weaken fun e' same => ⟨applyUnary token.pos op e', ?_, rfl⟩).iff
      Nat.succ_le_succ_iff.symm
    rw [unplaced_applyUnary, same, applied]

theorem Reads.unary {pos : Nat} {op : UnaryOp} {operand : Expr} (h : operand.Reads depth .prefixed)
    (writable : (Expr.unary pos op operand).IsWritable) :
    (Expr.unary pos op operand).Reads depth .prefixed := by
  refine Reads.prefixed (e := .unary pos op operand) op h rfl rfl rfl ?_
  rw [← unplaced_applyUnary pos, applyUnary_of_isWritable writable]

/-! ## Operators in between -/

theorem operator?_written (op : BinaryOp) : op.chain.operator? op.written = some op := by
  cases op with
  | compare c => cases c <;> rfl
  | compute a => cases a <;> rfl

theorem Reads.binary {op : BinaryOp} {l r : Expr} (left : l.Reads depth (.chain op.chain))
    (right : r.Reads depth (Tier.chain op.chain).tighter) :
    (Expr.binary op l r).Reads depth (.chain op.chain) := by
  refine .own (e := .binary op l r) fun stop levels ts rest fewer written ends => ?_
  obtain ⟨front, back, rfl, first, others⟩ := Token.Write.append_iff.1 written
  have notKeyword : op.written.keyword? = none := by
    cases op with
    | compare c => cases c <;> rfl
    | compute a => cases a <;> rfl
  obtain ⟨pos, more, rfl, second⟩ := Token.Write.cons_symbol others notKeyword
  have binds := operator?_written op
  have looser :
      (Tier.chain op.chain).tighter.Ends (⟨.symbol op.written, pos⟩ :: (more ++ rest)) := by
    refine .cons (.inl rfl) ?_
    rw [Tier.operator?_tier binds]
    rintro _ ⟨⟩
    exact Tier.rank_tighter (t := .chain op.chain) nofun ▸ Nat.lt_succ_self _
  rw [List.append_assoc]
  refine ((left stop levels front _ fewer first looser).trans fun l' same => ?_).iff Nat.max_le.symm
  change Arrives (outcome (ExprParser.links _ _ stop (levels - l.linksAt (.chain op.chain)) l'
    (⟨.symbol op.written, pos⟩ :: (more ++ rest)))) _ _ _
  have count : (Expr.binary op l r).links = l.linksAt (.chain op.chain) + 1 := rfl
  rw [count]
  cases has : levels - l.linksAt (.chain op.chain) with
  | zero =>
    rw [outcome_links_full binds]
    exact .full (by change ¬ l.linksAt _ + 1 + r.levelsAt _ ≤ levels; omega)
  | succ left =>
    have read := right.arrives stop (show left ≤ depth by omega) second ends
    have less : levels - (l.linksAt (.chain op.chain) + 1) = left := by omega
    rw [outcome_links_operator binds, less]
    refine (read.bind.weaken fun r' ok => ⟨.binary op l' r', ?_, rfl⟩).iff ?_
    · rw [unplaced, unplaced, same, ok]
    · change _ ↔ l.linksAt _ + 1 + r.levelsAt _ ≤ levels
      omega

/-! ## Logic and choices -/

theorem isLogical_written {token : Token} {op : LogicalOp}
    (h : token.Writes (.symbol op.written)) : isLogical op token := by
  obtain ⟨lexeme, pos⟩ := token
  rcases h with h | ⟨keyword, mem, written⟩
  · obtain rfl : lexeme = .symbol op.written := h
    cases op <;> rfl
  · cases lexeme with
    | word =>
      cases op with
      | and =>
        obtain rfl : "and" = keyword := Option.some.inj mem
        exact written
      | or =>
        obtain rfl : "or" = keyword := Option.some.inj mem
        exact written
    | int | real | text | symbol => cases written

section operands

variable {op : LogicalOp} {t : Tier} {es : List Expr}

theorem ends_operands (tighter : (Tier.logical op).rank < t.rank)
    (written : Token.Write ts ((itemLexemes es t).flatMap (.symbol op.written :: ·)))
    (ends : (Tier.logical op).Ends rest) : t.Ends (ts ++ rest) := by
  cases es with
  | nil =>
    cases written
    exact ends.mono (Nat.le_of_lt tighter)
  | cons e es =>
    obtain ⟨token, more, rfl, operator, -⟩ := Token.Write.cons_iff.1 written
    refine .cons operator ?_
    cases op <;> rintro _ ⟨⟩ <;> exact tighter

theorem arrives_operands (each : ∀ e ∈ es, e.Reads depth t) (fewer : levels ≤ depth)
    (tighter : (Tier.logical op).rank < t.rank)
    (written : Token.Write ts ((itemLexemes es t).flatMap (.symbol op.written :: ·)))
    (ends : (Tier.logical op).Ends rest) :
    Arrives (outcome (operands (t.parser (expression depth) stop levels) op (ts ++ rest)))
      (itemLevels es t ≤ levels) (fun read => unplacedItems read = unplacedItems es)
      fun read => .ok (read, rest) := by
  induction es generalizing ts with
  | nil =>
    cases written
    rw [List.nil_append, outcome_operands_stay ends.not_isLogical]
    exact ⟨fun _ => ⟨[], rfl, rfl⟩, fun no => absurd (Nat.zero_le _) no⟩
  | cons e es ih =>
    obtain ⟨token, more, rfl, operator, others⟩ := Token.Write.cons_iff.1 written
    obtain ⟨front, back, rfl, first, remaining⟩ := Token.Write.append_iff.1 others
    have read := (each e List.mem_cons_self).arrives stop fewer first
      (ends_operands tighter remaining ends)
    have tail := ih (fun e mem => each e (List.mem_cons_of_mem _ mem)) remaining
    have onwards (e' : Expr) (same : e'.unplaced = e.unplaced) :
        Arrives ((fun read => (e' :: read.1, read.2)) <$>
            outcome (operands (t.parser (expression depth) stop levels) op (back ++ rest)))
          (itemLevels es t ≤ levels) (fun read => unplacedItems read = unplacedItems (e :: es))
          fun read => .ok (read, rest) :=
      tail.map.weaken fun read ok =>
        ⟨e' :: read, by rw [unplacedItems, unplacedItems, same, ok], rfl⟩
    rw [List.cons_append, outcome_operands_operator (isLogical_written operator), List.append_assoc]
    exact (read.bind.trans onwards).iff Nat.max_le.symm

end operands

theorem Reads.logical {op : LogicalOp} {first : Expr} {rest : List Expr}
    (h : first.Reads depth (Tier.logical op).tighter)
    (each : ∀ e ∈ rest, e.Reads depth (Tier.logical op).tighter) (some : rest ≠ []) :
    (Expr.logical op first rest).Reads depth (.logical op) := by
  refine .own (e := .logical op first rest) fun stop levels ts behind fewer written ends => ?_
  have tighter : (Tier.logical op).rank < (Tier.logical op).tighter.rank :=
    Tier.rank_tighter (t := .logical op) nofun ▸ Nat.lt_succ_self _
  obtain ⟨front, back, rfl, one, others⟩ := Token.Write.append_iff.1 written
  have read := h.arrives stop fewer one (ends_operands tighter others ends)
  have onwards (first' : Expr) (same : first'.unplaced = first.unplaced) :
      Arrives ((fun read => (joinOperands op first' read.1, read.2)) <$>
          outcome (operands ((Tier.logical op).tighter.parser (expression depth) stop levels) op
            (back ++ behind)))
        (itemLevels rest (Tier.logical op).tighter ≤ levels)
        (fun e' => e'.unplaced = (Expr.logical op first rest).unplaced)
        fun e' => .ok (e', behind) := by
    refine (arrives_operands each fewer tighter others ends).map.weaken fun read ok => ?_
    refine ⟨joinOperands op first' read, ?_, rfl⟩
    cases read with
    | nil =>
      cases rest with
      | nil => exact absurd rfl some
      | cons => cases ok
    | cons => rw [joinOperands, unplaced, unplaced, same, ok]
  change Arrives (outcome ((Tier.logical op).parser _ stop levels (front ++ back ++ behind))) _ _ _
  rw [Tier.parser_logical, outcome_logical, List.append_assoc]
  exact (read.bind.trans onwards).iff Nat.max_le.symm

theorem Reads.choice {condition yes no : Expr} (first : condition.Reads depth (.logical .or))
    (second : yes.Reads depth .whole) (third : no.Reads depth .whole) :
    (Expr.choice condition yes no).Reads depth .choice := by
  refine .own (e := .choice condition yes no) fun stop levels ts rest fewer written ends => ?_
  have lexemes : (Expr.choice condition yes no).lexemes = condition.lexemesAt (.logical .or) ++
      .symbol .question :: (yes.lexemesAt .whole ++ .symbol .colon :: no.lexemesAt .whole) := by
    rw [Expr.lexemes, List.append_assoc, lexemesAt_whole, lexemesAt_whole]
    rfl
  rw [lexemes] at written
  obtain ⟨front, back, rfl, asked, others⟩ := Token.Write.append_iff.1 written
  obtain ⟨p, more, rfl, branches⟩ := Token.Write.cons_symbol others rfl
  obtain ⟨middle, last, rfl, chosen, otherwise⟩ := Token.Write.append_iff.1 branches
  obtain ⟨q, back, rfl, refused⟩ := Token.Write.cons_symbol otherwise rfl
  have asks : (Tier.logical .or).Ends
      (⟨.symbol .question, p⟩ :: (middle ++ ⟨.symbol .colon, q⟩ :: (back ++ rest))) := by
    refine .cons (.inl rfl) ?_
    rintro _ ⟨⟩
    exact Nat.lt_succ_self _
  have separates : Tier.whole.Ends (⟨.symbol .colon, q⟩ :: (back ++ rest)) := .closing (.inl rfl) rfl
  have deep : (Expr.choice condition yes no).levels = max (condition.levelsAt (.logical .or))
      (max (yes.levelsAt .whole) (no.levelsAt .whole)) := by
    rw [levelsAt_whole, levelsAt_whole]
    rfl
  have onwards (c : Expr) (same : c.unplaced = condition.unplaced) :
      Arrives (outcome (expression depth stop levels
            (middle ++ ⟨.symbol .colon, q⟩ :: (back ++ rest))) >>= fun yes =>
          outcome (symbol .colon stop yes.2) >>= fun colon =>
            (fun no => (Expr.choice c yes.1 no.1, no.2)) <$>
              outcome (expression depth stop levels colon.2))
        (yes.levelsAt .whole ≤ levels ∧ no.levelsAt .whole ≤ levels)
        (fun e' => e'.unplaced = (Expr.choice condition yes no).unplaced)
        fun e' => .ok (e', rest) := by
    refine (second.arrives stop fewer chosen separates).bind.trans fun y same' => ?_
    dsimp only
    rw [symbol_self]
    exact (third.arrives stop fewer refused ends.whole).map.weaken fun n same'' =>
      ⟨.choice c y n, by rw [unplaced, unplaced, same, same', same''], rfl⟩
  have list : front ++ ⟨.symbol .question, p⟩ :: (middle ++ ⟨.symbol .colon, q⟩ :: back) ++ rest =
      front ++ ⟨.symbol .question, p⟩ :: (middle ++ ⟨.symbol .colon, q⟩ :: (back ++ rest)) := by
    simp only [List.append_assoc, List.cons_append]
  rw [list, deep]
  change Arrives (outcome (ExprParser.choice _ stop levels _)) _ _ _
  rw [outcome_choice]
  refine ((first.arrives stop fewer asked asks).bind.trans fun c same => ?_).iff
    (by rw [Nat.max_le, Nat.max_le])
  dsimp only
  rw [behind?_self]
  exact onwards c same

/-! ## Numbers -/

/-- A minus in front of a constant is read as the constant that it makes of it. -/
theorem Reads.negative {e c : Expr} {l : Lexeme}
    (read : ∀ depth, c.Reads depth c.tier) (writable : c.AllWritable)
    (primary : c.tier = .primary) (alone : c.lexemes = [l])
    (flat : c.levels = 0) (tier : e.tier = .prefixed)
    (lexemes : e.lexemes = [.symbol .minus, l]) (deep : e.levels = 1)
    (applied : applyUnary 0 .negate c.unplaced = e.unplaced) : e.Reads depth e.tier := by
  have looser : Tier.prefixed.rank ≤ c.tier.rank := by
    rw [primary]
    decide
  refine .prefixed .negate (everywhere read writable depth .prefixed) tier ?_ ?_ applied
  · rw [lexemesAt_of_le looser, alone, lexemes]
    rfl
  · rw [levelsAt_of_le looser nofun, flat, deep]

theorem Reads.int_of_nonneg {pos : Nat} {n : Int} (h : ¬ n < 0) :
    (Expr.int pos n).Reads depth (Expr.int pos n).tier := by
  refine .leaf (l := .int n.natAbs) (if_neg h) (if_neg h) (if_neg h) (fun _ => id)
    fun _ _ _ p _ _ => ⟨.int p n.natAbs, ?_, rfl⟩
  rw [unplaced, unplaced, Int.natAbs_of_nonneg (Int.not_lt.1 h)]

theorem Reads.int {pos : Nat} {n : Int} : (Expr.int pos n).Reads depth (Expr.int pos n).tier := by
  by_cases h : n < 0
  · have plain : ¬ -n < 0 := by omega
    have lexemes : (Expr.int 0 (-n)).lexemes = [.int n.natAbs] := by
      rw [Expr.lexemes, if_neg plain, Int.natAbs_neg]
    refine .negative (c := .int 0 (-n)) (fun _ => int_of_nonneg plain)
      (.of_parts trivial (List.forall_mem_nil _)) (if_neg plain) lexemes (if_neg plain) (if_pos h)
      (if_pos h) (if_pos h) ?_
    rw [unplaced, unplaced, applyUnary, Int.neg_neg]
  · exact int_of_nonneg h

theorem Reads.real_of_nonneg {pos : Nat} {x : Float} (h : ¬ Decimal.isNegative x) :
    (Expr.real pos x).Reads depth (Expr.real pos x).tier :=
  .leaf (l := .real x) (if_neg h) (if_neg h) (if_neg h) (fun _ => id)
    fun _ _ _ p _ _ => ⟨.real p x, rfl, rfl⟩

theorem Reads.real {pos : Nat} {x : Float} :
    (Expr.real pos x).Reads depth (Expr.real pos x).tier := by
  by_cases h : Decimal.isNegative x
  · have plain := Decimal.not_isNegative_neg h
    refine .negative (c := .real 0 (-x)) (fun _ => real_of_nonneg plain)
      (.of_parts trivial (List.forall_mem_nil _)) (if_neg plain) (if_neg plain) (if_neg plain)
      (if_pos h) (if_pos h) (if_pos h) ?_
    rw [unplaced, unplaced, applyUnary, Decimal.neg_neg]
  · exact real_of_nonneg h

/-! ## Every expression -/

theorem reads {e : Expr} (writable : e.AllWritable) : e.Reads depth t := by
  induction e using Expr.induction generalizing depth t with
  | step e ih =>
    have part {part : Expr} (mem : part ∈ e.parts) {depth : Nat} {t : Tier} : part.Reads depth t :=
      ih part mem (writable.part mem)
    -- The parts are read wherever they stand, so the whole is read at its own tier.
    refine .everywhere (fun depth => ?_) writable depth t
    cases e with
    | bool _ b =>
      refine .leaf rfl rfl rfl (fun _ => id) fun _ _ _ p _ _ => ⟨.bool p b, rfl, ?_⟩
      cases b <;> rfl
    | int => exact .int
    | real => exact .real
    | text _ s => exact .leaf rfl rfl rfl (fun _ => id) fun _ _ _ p _ _ => ⟨.text p s, rfl, rfl⟩
    | name _ s =>
      refine .leaf rfl rfl rfl (fun _ => id) fun _ _ _ p _ ends => ⟨.name p s, rfl, ?_⟩
      exact outcome_name writable.self.1 (behind?_eq_none (ends.lexeme_ne rfl (Nat.le_refl _)))
    | member => exact .member (part List.mem_cons_self)
    | call => exact .call (fun arg mem => part (List.mem_map_of_mem mem)) writable
    | method =>
      exact .method (part List.mem_cons_self)
        (fun arg mem => part (List.mem_cons_of_mem _ (List.mem_map_of_mem mem))) writable
    | index =>
      exact .index (part List.mem_cons_self) (part (List.mem_cons_of_mem _ List.mem_cons_self))
    | unary => exact .unary (part List.mem_cons_self) writable.self
    | binary =>
      exact .binary (part List.mem_cons_self) (part (List.mem_cons_of_mem _ List.mem_cons_self))
    | logical =>
      exact .logical (part List.mem_cons_self) (fun e mem => part (List.mem_cons_of_mem _ mem))
        writable.self
    | choice =>
      exact .choice (part List.mem_cons_self) (part (List.mem_cons_of_mem _ List.mem_cons_self))
        (part (List.mem_cons_of_mem _ (List.mem_cons_of_mem _ List.mem_cons_self)))
    | array => exact .array (fun e mem => part mem) writable

theorem arrives_ofTokens {fits : Prop} {good : Expr → Prop}
    (read : Arrives (outcome (expression maxLevels stop maxLevels ts)) fits good
      fun e => .ok (e, [])) :
    Arrives (ofTokens stop ts) fits good .ok := by
  rw [ofTokens_eq]
  exact read.bind.weaken fun e ok => ⟨e, ok, rfl⟩

theorem arrives_written {e : Expr} (writable : e.AllWritable) (written : Token.Write ts e.lexemes)
    (stop : Nat) :
    Arrives (ofTokens stop ts) (e.levels < maxLevels) (fun e' => e'.unplaced = e.unplaced) .ok := by
  rw [← lexemesAt_whole] at written
  have read := (reads writable).arrives stop (Nat.le_refl maxLevels) written Tier.Ends.nil
  rw [List.append_nil, levelsAt_whole] at read
  exact arrives_ofTokens read

/-- Tokens that write an expression are read as the expression, up to its positions, or nest too
deeply, which depends on its levels alone. -/
theorem ofTokens_written {e : Expr} (writable : e.AllWritable)
    (written : Token.Write ts e.lexemes) (stop : Nat) :
    (e.levels < maxLevels → ∃ e', ofTokens stop ts = .ok e' ∧ e'.unplaced = e.unplaced) ∧
      (maxLevels ≤ e.levels → ∃ pos, ofTokens stop ts = .error ⟨.nestedTooDeeply, pos⟩) := by
  rw [← lexemesAt_whole] at written
  have read := (reads writable).arrives stop (Nat.le_refl maxLevels) written Tier.Ends.nil
  rw [List.append_nil, levelsAt_whole] at read
  constructor
  · intro fits
    obtain ⟨e', same, eq⟩ := read.reads fits
    refine ⟨e', ?_, same⟩
    rw [ofTokens_eq, show outcome (expression maxLevels stop maxLevels ts) = _ from eq]
    rfl
  · intro deep
    obtain ⟨pos, eq⟩ := read.fails (Nat.not_lt.2 deep)
    refine ⟨pos, ?_⟩
    rw [ofTokens_eq, show outcome (expression maxLevels stop maxLevels ts) = _ from eq]
    rfl

/-- The brackets of `a && (b && -1)` are written, and read. -/
def bracketed : Expr :=
  .logical .and (.name 0 "a") [.logical .and (.name 0 "b") [.int 0 (-1)]]

def bracketedTokens : List Token :=
  [⟨.word "a", 0⟩, ⟨.word "AND", 2⟩, ⟨.symbol .leftParen, 6⟩, ⟨.word "b", 7⟩,
    ⟨.symbol .ampersands, 9⟩, ⟨.symbol .minus, 12⟩, ⟨.int 1, 13⟩, ⟨.symbol .rightParen, 14⟩]

theorem ofTokens_bracketedTokens :
    bracketed.AllWritable ∧ Token.Write bracketedTokens bracketed.lexemes ∧
      ∃ e, ofTokens 15 bracketedTokens = .ok e ∧ e.unplaced = bracketed.unplaced := by
  have name (s : String) (h : s = "a" ∨ s = "b") : (Expr.name 0 s).AllWritable := by
    refine .of_parts ?_ (List.forall_mem_nil _)
    rcases h with rfl | rfl <;> exact ⟨by decide, by decide +kernel⟩
  have int : (Expr.int 0 (-1)).AllWritable := .of_parts trivial (List.forall_mem_nil _)
  have pair {first second : Expr} (h : first.AllWritable) (h' : second.AllWritable) :
      (Expr.logical .and first [second]).AllWritable :=
    .of_parts (List.cons_ne_nil _ _)
      (List.forall_mem_cons.2 ⟨h, List.forall_mem_singleton.2 h'⟩)
  have writable : bracketed.AllWritable :=
    pair (name "a" (.inl rfl)) (pair (name "b" (.inr rfl)) int)
  have written : Token.Write bracketedTokens bracketed.lexemes := by
    have word : ExprParser.isKeyword "and" (.word "AND") := by decide +kernel
    exact .cons rfl (.cons (.inr ⟨_, rfl, word⟩) (.cons (.inl rfl) (.cons rfl (.cons (.inl rfl)
      (.cons (.inl rfl) (.cons rfl (.cons (.inl rfl) .nil)))))))
  exact ⟨writable, written, (ofTokens_written writable written 15).1 (by decide +kernel)⟩

end Expr

end LootFilter
