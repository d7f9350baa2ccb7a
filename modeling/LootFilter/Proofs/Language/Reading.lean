import LootFilter.Proofs.Language.Tier

/-!
# Reading step by step

What each parser reads from the front of the tokens and what it leaves, as equations from parser to
parser.
-/

namespace LootFilter

namespace ExprParser

variable {α β : Type} {n k stop levels pos : Nat} {ts : List Token} {s : Symbol}

/-- What was read and what is left. -/
def outcome (r : Except CompileError (Parsed Token α n)) : Except CompileError (α × List Token) :=
  (fun p => (p.value, p.rest)) <$> r

/-- What is left behind a symbol. -/
def behind? (s : Symbol) (ts : List Token) : Option (List Token) := (symbol? s ts).map Parsed.rest

theorem outcome_bind {r : Except CompileError (Parsed Token α n)}
    {f : Parsed Token α n → Except CompileError (Parsed Token β k)}
    {g : α × List Token → Except CompileError (β × List Token)}
    (h : ∀ p, outcome (f p) = g (p.value, p.rest)) : outcome (r >>= f) = outcome r >>= g := by
  cases r with
  | error e => rfl
  | ok p => exact h p

/-! ## Symbols and lists -/

theorem symbol?_self : symbol? s (⟨.symbol s, pos⟩ :: ts) = some (.stay () ts) := by
  simp only [symbol?, if_true]

theorem behind?_self : behind? s (⟨.symbol s, pos⟩ :: ts) = some ts := by
  rw [behind?, symbol?_self]
  rfl

theorem behind?_eq_none (h : ∀ t ∈ ts.head?, t.lexeme ≠ .symbol s) : behind? s ts = none := by
  unfold behind? symbol?
  split
  · rw [if_neg fun same => h _ rfl (congrArg Lexeme.symbol same)]
    rfl
  · rfl

theorem symbol_self :
    symbol s stop (⟨.symbol s, pos⟩ :: ts) = .ok (.stay () ts) := by
  rw [symbol, symbol?_self]

section lists

variable {item : (ts : List Token) → Except CompileError (Parsed Token α ts.length)}
  {close : Symbol}

theorem outcome_items :
    outcome (items item close stop ts) = outcome (item ts) >>= fun first =>
      (behind? .comma first.2).elim
        ((fun closed => ([first.1], closed.2)) <$> outcome (symbol close stop first.2))
        fun rest => (fun more => (first.1 :: more.1, more.2)) <$>
          outcome (items item close stop rest) := by
  rw [items]
  refine outcome_bind fun first => ?_
  unfold behind?
  dsimp only
  cases symbol? .comma first.rest with
  | none =>
    dsimp only [Option.map_none, Option.elim_none]
    cases symbol close stop first.rest <;> rfl
  | some comma =>
    dsimp only [Option.map_some, Option.elim_some]
    cases items item close stop comma.rest <;> rfl

theorem outcome_itemsOrNone :
    outcome (itemsOrNone item close stop ts) =
      (behind? close ts).elim (outcome (items item close stop ts)) fun rest => .ok ([], rest) := by
  unfold itemsOrNone behind?
  cases symbol? close ts <;> rfl

end lists

section readers

variable {expr operand : ExprParser} {p q r : Nat}

theorem outcome_argument_lambda {param : String} :
    outcome (argument expr stop levels (⟨.word param, pos⟩ :: ⟨.symbol .arrow, p⟩ :: ts)) =
      (fun body => (.lambda pos param body.1, body.2)) <$> outcome (expr stop levels ts) := by
  unfold argument
  dsimp only
  cases expr stop levels ts <;> rfl

theorem outcome_argument_plain (h : ∀ t ∈ ts.tail.head?, t.lexeme ≠ .symbol .arrow) :
    outcome (argument expr stop levels ts) =
      (fun e => (.plain e.1, e.2)) <$> outcome (expr stop levels ts) := by
  unfold argument
  split
  · exact absurd rfl (h _ rfl)
  · cases expr stop levels _ <;> rfl

/-! ## Primary expressions -/

theorem outcome_bracket :
    outcome (primary expr stop levels (⟨.symbol .leftParen, pos⟩ :: ts)) =
      outcome (expr stop levels ts) >>= fun inner =>
        (fun closed => (inner.1, closed.2)) <$> outcome (symbol .rightParen stop inner.2) := by
  refine outcome_bind fun inner => ?_
  dsimp only
  cases symbol .rightParen stop inner.rest <;> rfl

theorem outcome_array :
    outcome (primary expr stop levels (⟨.word "new", pos⟩ :: ⟨.symbol .leftBracket, p⟩ ::
        ⟨.symbol .rightBracket, q⟩ :: ⟨.symbol .leftBrace, r⟩ :: ts)) =
      (fun items => (.array pos items.1, items.2)) <$>
        outcome (itemsOrNone (expr stop levels) .rightBrace stop ts) := by
  have notTrue : ¬ "new" = "true" := by decide
  have notFalse : ¬ "new" = "false" := by decide
  simp only [primary, array, symbol_self, if_neg notTrue, if_neg notFalse, if_true]
  change outcome (Parsed.widen <$> (itemsOrNone (expr stop levels) .rightBrace stop ts >>= _)) = _
  cases itemsOrNone (expr stop levels) .rightBrace stop ts <;> rfl

theorem outcome_call {name : String} (h : name ∉ ["true", "false", "new"]) :
    outcome (primary expr stop levels (⟨.word name, pos⟩ :: ⟨.symbol .leftParen, p⟩ :: ts)) =
      (fun args => (.call pos name args.1, args.2)) <$>
        outcome (arguments expr stop levels ts) := by
  simp only [List.mem_cons, List.not_mem_nil, or_false, not_or] at h
  simp only [primary, if_neg h.1, if_neg h.2.1, if_neg h.2.2, symbol?, if_true]
  change outcome (arguments expr stop levels ts >>= _) = _
  cases arguments expr stop levels ts <;> rfl

theorem outcome_name {name : String} (h : name ∉ ["true", "false", "new"])
    (rest : behind? .leftParen ts = none) :
    outcome (primary expr stop levels (⟨.word name, pos⟩ :: ts)) = .ok (.name pos name, ts) := by
  simp only [List.mem_cons, List.not_mem_nil, or_false, not_or] at h
  simp only [primary, if_neg h.1, if_neg h.2.1, if_neg h.2.2, Option.map_eq_none_iff.1 rest]
  rfl

/-! ## Members, indices and operators -/

theorem outcome_postfixed :
    outcome (postfixed expr stop levels ts) = outcome (primary expr stop levels ts) >>= fun target =>
      outcome (suffixes expr stop levels target.1 target.2) := by
  refine outcome_bind fun target => ?_
  dsimp only
  cases suffixes expr stop levels target.value target.rest <;> rfl

section suffixes

variable {target : Expr}

theorem outcome_suffixes_member {name : String} (h : behind? .leftParen ts = none) :
    outcome (suffixes expr stop (levels + 1) target
        (⟨.symbol .dot, pos⟩ :: ⟨.word name, p⟩ :: ts)) =
      outcome (suffixes expr stop levels (.member target name) ts) := by
  rw [suffixes]
  simp only [identifier, Parsed.stay, bind, Except.bind, Option.map_eq_none_iff.1 h]
  cases suffixes expr stop levels (.member target name) ts <;> rfl

theorem outcome_suffixes_method {name : String} :
    outcome (suffixes expr stop (levels + 1) target
        (⟨.symbol .dot, pos⟩ :: ⟨.word name, p⟩ :: ⟨.symbol .leftParen, q⟩ :: ts)) =
      outcome (arguments expr stop levels ts) >>= fun args =>
        outcome (suffixes expr stop levels (.method target name args.1) args.2) := by
  rw [suffixes]
  simp only [identifier, Parsed.stay, bind, Except.bind, symbol?_self]
  refine outcome_bind fun args => ?_
  dsimp only
  cases suffixes expr stop levels (.method target name args.value) args.rest <;> rfl

theorem outcome_suffixes_index :
    outcome (suffixes expr stop (levels + 1) target (⟨.symbol .leftBracket, pos⟩ :: ts)) =
      outcome (expr stop levels ts) >>= fun index =>
        outcome (symbol .rightBracket stop index.2) >>= fun closed =>
          outcome (suffixes expr stop levels (.index target index.1) closed.2) := by
  rw [suffixes]
  refine outcome_bind fun index => outcome_bind fun closed => ?_
  dsimp only
  cases suffixes expr stop levels (.index target index.value) closed.rest <;> rfl

theorem outcome_suffixes_full (h : s = .dot ∨ s = .leftBracket) :
    outcome (suffixes expr stop 0 target (⟨.symbol s, pos⟩ :: ts)) =
      .error ⟨.nestedTooDeeply, pos⟩ := by
  rcases h with rfl | rfl <;> rfl

theorem outcome_suffixes_stay
    (h : ∀ t ∈ ts.head?, t.lexeme ≠ .symbol .dot ∧ t.lexeme ≠ .symbol .leftBracket) :
    outcome (suffixes expr stop levels target ts) = .ok (target, ts) := by
  unfold suffixes
  split
  · exact absurd rfl (h _ rfl).1
  · exact absurd rfl (h _ rfl).2
  · exact absurd rfl (h _ rfl).1
  · exact absurd rfl (h _ rfl).2
  · rfl

end suffixes

section operators

variable {t : Token} {op : UnaryOp}

theorem outcome_prefixed_plain (h : unaryOp? t = none) :
    outcome (prefixed expr stop levels (t :: ts)) =
      outcome (postfixed expr stop levels (t :: ts)) := by
  unfold prefixed
  rw [h]

theorem outcome_prefixed_full (h : unaryOp? t = some op) :
    outcome (prefixed expr stop 0 (t :: ts)) = .error ⟨.nestedTooDeeply, t.pos⟩ := by
  unfold prefixed
  rw [h]
  rfl

theorem outcome_prefixed_operator (h : unaryOp? t = some op) :
    outcome (prefixed expr stop (levels + 1) (t :: ts)) =
      (fun operand => (applyUnary t.pos op operand.1, operand.2)) <$>
        outcome (prefixed expr stop levels ts) := by
  rw [prefixed.eq_def]
  dsimp only
  rw [h]
  dsimp only
  cases prefixed expr stop levels ts <;> rfl

variable {operator : Symbol → Option BinaryOp} {left : Expr} {op : BinaryOp}

theorem outcome_links_full (h : operator s = some op) :
    outcome (links operand operator stop 0 left (⟨.symbol s, pos⟩ :: ts)) =
      .error ⟨.nestedTooDeeply, pos⟩ := by
  unfold links
  rw [h]
  rfl

theorem outcome_links_operator (h : operator s = some op) :
    outcome (links operand operator stop (levels + 1) left (⟨.symbol s, pos⟩ :: ts)) =
      outcome (operand stop levels ts) >>= fun right =>
        outcome (links operand operator stop levels (.binary op left right.1) right.2) := by
  rw [links.eq_def]
  dsimp only
  rw [h]
  refine outcome_bind fun right => ?_
  dsimp only
  cases links operand operator stop levels (.binary op left right.value) right.rest <;> rfl

theorem outcome_links_stay
    (h : ∀ t ∈ ts.head?, ∀ s, t.lexeme = .symbol s → operator s = none) :
    outcome (links operand operator stop levels left ts) = .ok (left, ts) := by
  unfold links
  split
  · rw [h _ rfl _ rfl]
    rfl
  · rfl

theorem outcome_chain :
    outcome (chain operand operator stop levels ts) =
      outcome (operand stop levels ts) >>= fun first =>
        outcome (links operand operator stop levels first.1 first.2) := by
  refine outcome_bind fun first => ?_
  dsimp only
  cases links operand operator stop levels first.value first.rest <;> rfl

end operators

/-! ## Logic and choices -/

section logic

variable {op : LogicalOp} {t : Token}
  {operand : (ts : List Token) → Except CompileError (Parsed Token Expr ts.length)}

theorem outcome_operands_operator (h : isLogical op t) :
    outcome (operands operand op (t :: ts)) = outcome (operand ts) >>= fun head =>
      (fun tail => (head.1 :: tail.1, tail.2)) <$> outcome (operands operand op head.2) := by
  rw [operands, if_pos h]
  refine outcome_bind fun head => ?_
  dsimp only
  cases operands operand op head.rest <;> rfl

theorem outcome_operands_stay (h : ∀ t ∈ ts.head?, ¬ isLogical op t) :
    outcome (operands operand op ts) = .ok ([], ts) := by
  cases ts with
  | nil =>
    rw [operands]
    rfl
  | cons t ts =>
    rw [operands, if_neg (h t rfl)]
    rfl

end logic

theorem outcome_logical {op : LogicalOp} :
    outcome (logical op operand stop levels ts) =
      outcome (operand stop levels ts) >>= fun first =>
        (fun rest => (joinOperands op first.1 rest.1, rest.2)) <$>
          outcome (operands (operand stop levels) op first.2) := by
  refine outcome_bind fun first => ?_
  dsimp only
  cases operands (operand stop levels) op first.rest <;> rfl

theorem outcome_choice :
    outcome (choice expr stop levels ts) =
      outcome (logical .or (logical .and (comparison expr)) stop levels ts) >>= fun condition =>
        (behind? .question condition.2).elim (.ok condition) fun rest =>
          outcome (expr stop levels rest) >>= fun yes =>
            outcome (symbol .colon stop yes.2) >>= fun colon =>
              (fun no => (.choice condition.1 yes.1 no.1, no.2)) <$>
                outcome (expr stop levels colon.2) := by
  refine outcome_bind fun condition => ?_
  unfold behind?
  dsimp only
  cases symbol? .question condition.rest with
  | none => rfl
  | some question =>
    refine outcome_bind fun yes => outcome_bind fun colon => ?_
    dsimp only
    cases expr stop levels colon.rest <;> rfl

theorem outcome_expression_full (depth : Nat) :
    outcome (expression depth stop 0 ts) = .error ⟨.nestedTooDeeply, nextPos stop ts⟩ := by
  cases depth <;> rfl

theorem ofTokens_eq :
    Expr.ofTokens stop ts = outcome (expression maxLevels stop maxLevels ts) >>= fun read =>
      read.2.head?.elim (.ok read.1) fun t => .error ⟨.unexpectedToken, t.pos⟩ := by
  unfold Expr.ofTokens
  cases expression maxLevels stop maxLevels ts with
  | error => rfl
  | ok read =>
    obtain ⟨value, rest, -⟩ := read
    cases rest <;> rfl

end readers

end ExprParser

end LootFilter
