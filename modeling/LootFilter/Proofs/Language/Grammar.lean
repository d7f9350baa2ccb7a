import LootFilter.Proofs.Language.Compile
import LootFilter.Proofs.Language.Tier

/-!
# What the parser accepts

The grammar of expressions, with the levels that each construct uses up, and that whatever the parser
accepts follows it. Whatever it rejects, it rejects at one of the tokens or at the end of the text.
-/

namespace LootFilter

open ExprParser
open Typing (bind_eq_ok pure_eq_ok map_eq_ok)

/-- Whether the parameter of a lambda is one of the tokens. -/
def Arg.IsFrom (tokens : List Token) : Arg Expr → Prop
  | plain _ => True
  | lambda pos param _ => ⟨.word param, pos⟩ ∈ tokens

/-- `Derives tokens t levels under e`: some of the tokens make `e` at tier `t`, when `levels` levels
may be nested. As long as further operators or members may follow `e`, `under` tells how many levels
they may use up. -/
inductive Expr.Derives (tokens : List Token) : Tier → Nat → Option Nat → Expr → Prop
  | bool {token : Token} {b : Bool} {levels : Nat} : token ∈ tokens →
      Derives tokens .primary levels none (.bool token.pos b)
  | int {pos n levels : Nat} : ⟨.int n, pos⟩ ∈ tokens →
      Derives tokens .primary levels none (.int pos n)
  | real {pos levels : Nat} {x : Float} : ⟨.real x, pos⟩ ∈ tokens →
      Derives tokens .primary levels none (.real pos x)
  | text {pos levels : Nat} {s : String} : ⟨.text s, pos⟩ ∈ tokens →
      Derives tokens .primary levels none (.text pos s)
  | name {pos levels : Nat} {name : String} : ⟨.word name, pos⟩ ∈ tokens →
      Derives tokens .primary levels none (.name pos name)
  | call {pos levels : Nat} {name : String} {args : List (Arg Expr)} :
      ⟨.word name, pos⟩ ∈ tokens → (∀ arg ∈ args, arg.IsFrom tokens) →
      (∀ arg ∈ args, Derives tokens .whole levels none arg.body) →
      Derives tokens .primary levels none (.call pos name args)
  | array {token : Token} {levels : Nat} {items : List Expr} : token ∈ tokens →
      (∀ item ∈ items, Derives tokens .whole levels none item) →
      Derives tokens .primary levels none (.array token.pos items)
  | bracket {levels : Nat} {e : Expr} : Derives tokens .whole levels none e →
      Derives tokens .primary levels none e
  | member {levels left : Nat} {target : Expr} {name : String} :
      Derives tokens .postfixed levels (some (left + 1)) target →
      Derives tokens .postfixed levels (some left) (.member target name)
  | method {levels left : Nat} {target : Expr} {name : String} {args : List (Arg Expr)} :
      Derives tokens .postfixed levels (some (left + 1)) target →
      (∀ arg ∈ args, arg.IsFrom tokens) →
      (∀ arg ∈ args, Derives tokens .whole left none arg.body) →
      Derives tokens .postfixed levels (some left) (.method target name args)
  | index {levels left : Nat} {target index : Expr} :
      Derives tokens .postfixed levels (some (left + 1)) target →
      Derives tokens .whole left none index →
      Derives tokens .postfixed levels (some left) (.index target index)
  | prefixed {token : Token} {op : UnaryOp} {left : Nat} {operand : Expr} : token ∈ tokens →
      unaryOp? token = some op → Derives tokens .prefixed left none operand →
      Derives tokens .prefixed (left + 1) none (applyUnary token.pos op operand)
  | link {c : Chain} {s : Symbol} {op : BinaryOp} {levels left : Nat} {l r : Expr} :
      c.operator? s = some op → Derives tokens (.chain c) levels (some (left + 1)) l →
      Derives tokens (Tier.chain c).tighter left none r →
      Derives tokens (.chain c) levels (some left) (.binary op l r)
  | logical {op : LogicalOp} {levels : Nat} {first : Expr} {rest : List Expr} : rest ≠ [] →
      (∀ e ∈ first :: rest, Derives tokens (Tier.logical op).tighter levels none e) →
      Derives tokens (.logical op) levels none (.logical op first rest)
  | choice {levels : Nat} {condition yes no : Expr} :
      Derives tokens (.logical .or) levels none condition →
      Derives tokens .whole levels none yes → Derives tokens .whole levels none no →
      Derives tokens .choice levels none (.choice condition yes no)
  | whole {left : Nat} {e : Expr} : Derives tokens .choice left none e →
      Derives tokens .whole (left + 1) none e
  | begins {t : Tier} {levels : Nat} {e : Expr} : t ≠ .whole →
      Derives tokens t.tighter levels none e → Derives tokens t levels (some levels) e
  | ends {t : Tier} {levels left : Nat} {e : Expr} : Derives tokens t levels (some left) e →
      Derives tokens t levels none e

namespace ExprParser

open LootFilter.Expr (Derives)

variable {α β : Type} {tokens ts : List Token} {stop levels : Nat}

/-- Whether a place is that of a token, or the end of a text with `stop` characters. -/
def IsPlace (stop : Nat) (tokens : List Token) (pos : Nat) : Prop :=
  pos = stop ∨ ∃ token ∈ tokens, token.pos = pos

theorem IsPlace.of_mem {token : Token} (mem : token ∈ tokens) : IsPlace stop tokens token.pos :=
  .inr ⟨token, mem, rfl⟩

theorem IsPlace.next (sub : ts ⊆ tokens) : IsPlace stop tokens (nextPos stop ts) := by
  cases ts with
  | nil => exact .inl rfl
  | cons token ts => exact .of_mem (List.cons_subset.1 sub).1

/-- If something is read, it has property `P`, and what is left are some of the tokens. Otherwise
what is wrong stands at one of them or at the end. -/
structure Gives (stop : Nat) (tokens : List Token) (P : α → Prop) {n : Nat}
    (r : Except CompileError (Parsed Token α n)) : Prop where
  reads : ∀ p, r = .ok p → P p.value ∧ p.rest ⊆ tokens
  fails : ∀ e, r = .error e → IsPlace stop tokens e.position

theorem Gives.ok {n : Nat} {P : α → Prop} {p : Parsed Token α n} (good : P p.value)
    (rest : p.rest ⊆ tokens) : Gives stop tokens P (.ok p) where
  reads := by
    rintro _ ⟨⟩
    exact ⟨good, rest⟩
  fails e failed := by cases failed

theorem Gives.error {n : Nat} {P : α → Prop} {e : CompileError}
    (place : IsPlace stop tokens e.position) :
    Gives stop tokens P (.error e : Except CompileError (Parsed Token α n)) where
  reads p read := by cases read
  fails := by
    rintro _ ⟨⟩
    exact place

theorem Gives.bind {n k : Nat} {P : α → Prop} {Q : β → Prop}
    {x : Except CompileError (Parsed Token α n)}
    {f : Parsed Token α n → Except CompileError (Parsed Token β k)} (first : Gives stop tokens P x)
    (next : ∀ p, P p.value → p.rest ⊆ tokens → Gives stop tokens Q (f p)) :
    Gives stop tokens Q (x >>= f) := by
  cases x with
  | error e => exact .error (first.fails e rfl)
  | ok p =>
    obtain ⟨good, rest⟩ := first.reads p rfl
    exact next p good rest

theorem Gives.map {n k : Nat} {P : α → Prop} {Q : β → Prop}
    {x : Except CompileError (Parsed Token α n)} {f : Parsed Token α n → Parsed Token β k}
    (gives : Gives stop tokens P x)
    (next : ∀ p, P p.value → p.rest ⊆ tokens → Q (f p).value ∧ (f p).rest ⊆ tokens) :
    Gives stop tokens Q (f <$> x) := by
  cases x with
  | error e => exact .error (gives.fails e rfl)
  | ok p =>
    obtain ⟨good, rest⟩ := gives.reads p rfl
    exact .ok (p := f p) (next p good rest).1 (next p good rest).2

theorem Gives.mono {n : Nat} {P Q : α → Prop} {x : Except CompileError (Parsed Token α n)}
    (gives : Gives stop tokens P x) (weaker : ∀ a, P a → Q a) : Gives stop tokens Q x :=
  ⟨fun p h => ⟨weaker _ (gives.reads p h).1, (gives.reads p h).2⟩, gives.fails⟩

/-! ## Single tokens and lists -/

theorem symbol?_subset {s : Symbol} {p : Parsed Token Unit ts.length}
    (h : symbol? s ts = some p) : p.rest ⊆ ts := by
  unfold symbol? at h
  split at h
  · split at h
    · cases h
      exact List.subset_cons_self ..
    · cases h
  · cases h

theorem symbol_gives {s : Symbol} (sub : ts ⊆ tokens) :
    Gives stop tokens (fun _ => True) (symbol s stop ts) := by
  unfold symbol
  split
  · rename_i found
    exact .ok trivial (List.Subset.trans (symbol?_subset found) sub)
  · exact .error (.next sub)

theorem identifier_gives (sub : ts ⊆ tokens) :
    Gives stop tokens (fun _ => True) (identifier stop ts) := by
  unfold identifier
  split
  · exact .ok trivial (List.subset_of_cons_subset sub)
  · exact .error (.next sub)

section lists

variable {P : α → Prop}
  {item : (ts : List Token) → Except CompileError (Parsed Token α ts.length)}

theorem items_gives (each : ∀ ts, ts ⊆ tokens → Gives stop tokens P (item ts)) (close : Symbol)
    (sub : ts ⊆ tokens) : Gives stop tokens (fun es => ∀ e ∈ es, P e) (items item close stop ts) := by
  fun_induction items item close stop ts with
  | case1 ts ih =>
    refine (each ts sub).bind fun first good rest => ?_
    split
    · rename_i comma found
      have more := ih first comma (List.Subset.trans (symbol?_subset found) rest)
      exact more.bind fun more others rest => .ok (List.forall_mem_cons.2 ⟨good, others⟩) rest
    · exact (symbol_gives rest).bind fun closed _ rest =>
        .ok (List.forall_mem_singleton.2 good) rest

theorem itemsOrNone_gives (each : ∀ ts, ts ⊆ tokens → Gives stop tokens P (item ts)) (close : Symbol)
    (sub : ts ⊆ tokens) :
    Gives stop tokens (fun es => ∀ e ∈ es, P e) (itemsOrNone item close stop ts) := by
  unfold itemsOrNone
  split
  · rename_i closed
    exact .ok (List.forall_mem_nil _) (List.Subset.trans (symbol?_subset closed) sub)
  · exact items_gives each close sub

end lists

section readers

/-- `parser` reads what follows the grammar at tier `t`. -/
def Follows (tokens : List Token) (t : Tier) (parser : ExprParser) : Prop :=
  ∀ stop levels ts, ts ⊆ tokens →
    Gives stop tokens (Derives tokens t levels none) (parser stop levels ts)

variable {expr : ExprParser} (inner : Follows tokens .whole expr)

include inner

theorem argument_gives (sub : ts ⊆ tokens) :
    Gives stop tokens (fun arg => arg.IsFrom tokens ∧ Derives tokens .whole levels none arg.body)
      (argument expr stop levels ts) := by
  unfold argument
  split
  · rename_i param pos _ ts
    have mem : ⟨.word param, pos⟩ ∈ tokens := sub (List.mem_cons_self ..)
    have sub : ts ⊆ tokens := fun t h => sub (List.mem_cons_of_mem _ (List.mem_cons_of_mem _ h))
    exact (inner stop levels ts sub).bind fun body derives rest => .ok ⟨mem, derives⟩ rest
  · exact (inner stop levels ts sub).bind fun e derives rest => .ok ⟨trivial, derives⟩ rest

theorem arguments_gives (sub : ts ⊆ tokens) :
    Gives stop tokens
      (fun args => ∀ arg ∈ args, arg.IsFrom tokens ∧ Derives tokens .whole levels none arg.body)
      (arguments expr stop levels ts) :=
  itemsOrNone_gives (fun _ sub => argument_gives inner sub) _ sub

theorem array_gives {token : Token} (mem : token ∈ tokens) (sub : ts ⊆ tokens) :
    Gives stop tokens (Derives tokens .primary levels none) (array expr token.pos stop levels ts) :=
  (symbol_gives sub).bind fun _ _ rest => (symbol_gives rest).bind fun _ _ rest =>
    (symbol_gives rest).bind fun _ _ rest =>
      (itemsOrNone_gives (inner stop levels) _ rest).bind fun _ derive rest =>
        .ok (.array mem derive) rest

theorem primary_follows : Follows tokens .primary (primary expr) := by
  intro stop levels ts sub
  cases ts with
  | nil => exact .error (.inl rfl)
  | cons token ts =>
    obtain ⟨mem, rest⟩ := List.cons_subset.1 sub
    obtain ⟨lexeme, pos⟩ := token
    unfold primary
    dsimp only
    split
    · exact .ok (.int mem) rest
    · exact .ok (.real mem) rest
    · exact .ok (.text mem) rest
    · exact (inner stop levels ts rest).bind fun _ derives rest =>
        (symbol_gives rest).bind fun _ _ rest => .ok (.bracket derives) rest
    · exact .error (.of_mem mem)
    rename_i name
    split
    · exact .ok (.bool mem) rest
    split
    · exact .ok (.bool mem) rest
    split
    · exact (array_gives inner mem rest).map fun _ derives rest => ⟨derives, rest⟩
    split
    · rename_i opened found
      have rest := List.Subset.trans (symbol?_subset found) rest
      exact (arguments_gives inner rest).bind fun _ good rest =>
        .ok (.call mem (fun arg h => (good arg h).1) fun arg h => (good arg h).2) rest
    · exact .ok (.name mem) rest

/-! ## Members, indices and operators -/

theorem suffixes_gives {whole left : Nat} {target : Expr}
    (derives : Derives tokens .postfixed whole (some left) target) (sub : ts ⊆ tokens) :
    Gives stop tokens (Derives tokens .postfixed whole none) (suffixes expr stop left target ts) := by
  fun_induction suffixes expr stop left target ts with
  | case1 | case2 => exact .error (.of_mem (List.cons_subset.1 sub).1)
  | case3 left target pos ts method member =>
    refine (identifier_gives (List.cons_subset.1 sub).2).bind fun name _ rest => ?_
    split
    · rename_i opened found
      have behind := List.Subset.trans (symbol?_subset found) rest
      refine (arguments_gives inner behind).bind fun args good rest => ?_
      have derives : Derives tokens .postfixed whole (some left)
          (.method target name.value args.value) :=
        derives.method (fun arg h => (good arg h).1) fun arg h => (good arg h).2
      exact (method name opened args derives rest).bind fun _ derives rest => .ok derives rest
    · exact (member name derives.member rest).bind fun _ derives rest => .ok derives rest
  | case4 left target pos ts ih =>
    refine (inner stop left ts (List.cons_subset.1 sub).2).bind fun index found rest => ?_
    refine (symbol_gives rest).bind fun closed _ rest => ?_
    exact (ih index closed (derives.index found) rest).bind fun _ derives rest => .ok derives rest
  | case5 => exact .ok derives.ends sub

theorem postfixed_follows : Follows tokens .postfixed (postfixed expr) := by
  intro stop levels ts sub
  refine (primary_follows inner stop levels ts sub).bind fun target derives rest => ?_
  have started : Derives tokens .postfixed levels (some levels) target.value := .begins nofun derives
  exact (suffixes_gives inner started rest).bind fun _ derives rest => .ok derives rest

theorem prefixed_follows : Follows tokens .prefixed (prefixed expr) := by
  intro stop levels ts sub
  fun_induction prefixed expr stop levels ts with
  | case1 | case2 =>
    exact (postfixed_follows inner stop _ _ sub).mono fun _ derives => .ends (.begins nofun derives)
  | case3 => exact .error (.of_mem (List.cons_subset.1 sub).1)
  | case4 token ts left op found ih =>
    obtain ⟨mem, rest⟩ := List.cons_subset.1 sub
    exact (ih rest).bind fun _ derives rest => .ok (.prefixed mem found derives) rest

omit inner

theorem links_gives {c : Chain} {operand : ExprParser}
    (follows : Follows tokens (Tier.chain c).tighter operand) {whole left : Nat} {l : Expr}
    (derives : Derives tokens (.chain c) whole (some left) l) (sub : ts ⊆ tokens) :
    Gives stop tokens (Derives tokens (.chain c) whole none)
      (links operand c.operator? stop left l ts) := by
  fun_induction links operand c.operator? stop left l ts with
  | case1 => exact .ok derives.ends sub
  | case2 => exact .error (.of_mem (List.cons_subset.1 sub).1)
  | case3 left s pos ts op fewer found ih =>
    refine (follows stop fewer ts (List.cons_subset.1 sub).2).bind fun right operand rest => ?_
    exact (ih right (.link found derives operand) rest).bind fun _ derives rest => .ok derives rest
  | case4 => exact .ok derives.ends sub

theorem chain_follows {c : Chain} {operand : ExprParser}
    (follows : Follows tokens (Tier.chain c).tighter operand) :
    Follows tokens (.chain c) (chain operand c.operator?) := by
  intro stop levels ts sub
  refine (follows stop levels ts sub).bind fun first derives rest => ?_
  have started : Derives tokens (.chain c) levels (some levels) first.value := .begins nofun derives
  exact (links_gives follows started rest).bind fun _ derives rest => .ok derives rest

/-! ## Logic and choices -/

theorem operands_gives {P : Expr → Prop}
    {operand : (ts : List Token) → Except CompileError (Parsed Token Expr ts.length)}
    (each : ∀ ts, ts ⊆ tokens → Gives stop tokens P (operand ts)) (op : LogicalOp) (sub : ts ⊆ tokens) :
    Gives stop tokens (fun es => ∀ e ∈ es, P e) (operands operand op ts) := by
  fun_induction operands operand op ts with
  | case1 => exact .ok (List.forall_mem_nil _) sub
  | case2 t ts isOp ih =>
    refine (each ts (List.cons_subset.1 sub).2).bind fun head good rest => ?_
    exact (ih head rest).bind fun _ others rest => .ok (List.forall_mem_cons.2 ⟨good, others⟩) rest
  | case3 => exact .ok (List.forall_mem_nil _) sub

theorem logical_follows {op : LogicalOp} {operand : ExprParser}
    (follows : Follows tokens (Tier.logical op).tighter operand) :
    Follows tokens (.logical op) (logical op operand) := by
  intro stop levels ts sub
  refine (follows stop levels ts sub).bind fun first derives rest => ?_
  refine (operands_gives (follows stop levels) op rest).bind fun others derive rest => .ok ?_ rest
  change Derives tokens (.logical op) levels none (joinOperands op first.value others.value)
  cases joined : others.value with
  | nil => exact .ends (.begins nofun derives)
  | cons second more =>
    exact .logical (List.cons_ne_nil _ _) (List.forall_mem_cons.2 ⟨derives, joined ▸ derive⟩)

include inner

theorem comparison_follows : Follows tokens (.chain .equality) (comparison expr) :=
  have products := chain_follows (c := .product) (prefixed_follows inner)
  have sums := chain_follows (c := .sum) products
  have orders := chain_follows (c := .order) sums
  chain_follows orders

theorem choice_follows : Follows tokens .choice (choice expr) := by
  intro stop levels ts sub
  have conjunctions : Follows tokens (.logical .and) (logical .and (comparison expr)) :=
    logical_follows (comparison_follows inner)
  have conditions : Follows tokens (.logical .or) (logical .or (logical .and (comparison expr))) :=
    logical_follows conjunctions
  refine (conditions stop levels ts sub).bind fun condition derives rest => ?_
  split
  · rename_i question found
    have behind := List.Subset.trans (symbol?_subset found) rest
    refine (inner stop levels _ behind).bind fun yes first rest => ?_
    refine (symbol_gives rest).bind fun colon _ rest => ?_
    exact (inner stop levels _ rest).bind fun no second rest => .ok (derives.choice first second) rest
  · exact .ok (.ends (.begins nofun derives)) rest

end readers

theorem expression_follows (depth : Nat) : Follows tokens .whole (expression depth) := by
  induction depth with
  | zero => exact fun _ _ _ sub => .error (.next sub)
  | succ depth inner =>
    intro stop levels ts sub
    cases levels with
    | zero => exact .error (.next sub)
    | succ left => exact (choice_follows inner stop left ts sub).mono fun _ derives => .whole derives

end ExprParser

/-- Whatever is accepted follows the grammar. -/
theorem Expr.derives_of_ofText {text : String} {e : Expr} (h : ofText text = .ok e) :
    ∃ tokens, Token.ofText text = .ok tokens ∧ Derives tokens .whole ExprParser.maxLevels none e := by
  obtain ⟨tokens, scanned, h⟩ := bind_eq_ok.1 h
  obtain ⟨read, parsed, h⟩ := bind_eq_ok.1 h
  have gives := expression_follows ExprParser.maxLevels text.toList.length ExprParser.maxLevels tokens
    (List.Subset.refl tokens)
  have derives := (gives.reads read parsed).1
  split at h
  · cases h
    exact ⟨tokens, scanned, derives⟩
  · cases h

end LootFilter
