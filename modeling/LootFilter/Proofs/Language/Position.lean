import LootFilter.Proofs.Language.Grammar
import LootFilter.Proofs.Language.Tokens
import LootFilter.Proofs.Language.Written

/-!
# Where errors stand

Every node of an accepted expression stands at one of the tokens that it was read from, and every
error at the beginning of something in the text, or at its end.
-/

namespace LootFilter

/-! ## Places of a tree -/

namespace Expr

/-- Whether a node of the expression, or a lambda within it, stands at a place. -/
def HasPlace (e : Expr) (pos : Nat) : Prop :=
  ∃ node : Expr, node.IsIn e ∧ (pos = node.pos ∨ ∃ arg ∈ node.args, pos = arg.pos)

section places

variable {e part : Expr} {arg : Arg Expr} {pos : Nat}

theorem HasPlace.self (e : Expr) : e.HasPlace e.pos := ⟨e, .self e, .inl rfl⟩

theorem HasPlace.of_arg (mem : arg ∈ e.args) : e.HasPlace arg.pos := ⟨e, .self e, .inr ⟨arg, mem, rfl⟩⟩

theorem HasPlace.of_part (mem : part ∈ e.parts) (h : part.HasPlace pos) : e.HasPlace pos := by
  obtain ⟨node, inside, place⟩ := h
  exact ⟨node, .part mem inside, place⟩

theorem HasPlace.cases (h : e.HasPlace pos) :
    pos = e.pos ∨ (∃ arg ∈ e.args, pos = arg.pos) ∨ ∃ part ∈ e.parts, part.HasPlace pos := by
  obtain ⟨node, inside, place⟩ := h
  cases inside with
  | self => exact place.imp_right .inl
  | part mem inside => exact .inr (.inr ⟨_, mem, node, inside, place⟩)

end places

/-- Whether everything of the expression stands at one of the tokens. -/
def IsAt (tokens : List Token) (e : Expr) : Prop :=
  ∀ pos, e.HasPlace pos → ∃ token ∈ tokens, token.pos = pos

section tokens

variable {tokens : List Token} {e : Expr}

theorem IsAt.self (h : e.IsAt tokens) : ∃ token ∈ tokens, token.pos = e.pos := h _ (.self e)

theorem IsAt.of_parts (self : ∃ token ∈ tokens, token.pos = e.pos)
    (args : ∀ arg ∈ e.args, ∃ token ∈ tokens, token.pos = arg.pos)
    (parts : ∀ part ∈ e.parts, part.IsAt tokens) : e.IsAt tokens := by
  intro pos place
  obtain rfl | ⟨arg, mem, rfl⟩ | ⟨part, mem, place⟩ := place.cases
  · exact self
  · exact args arg mem
  · exact parts part mem pos place

theorem IsAt.leaf {token : Token} (mem : token ∈ tokens) (pos : e.pos = token.pos)
    (args : e.args = []) (parts : e.parts = []) : e.IsAt tokens := by
  refine .of_parts ⟨token, mem, pos.symm⟩ ?_ ?_
  · rw [args]
    exact List.forall_mem_nil _
  · rw [parts]
    exact List.forall_mem_nil _

theorem exists_token {arg : Arg Expr} (isFrom : arg.IsFrom tokens) (body : arg.body.IsAt tokens) :
    ∃ token ∈ tokens, token.pos = arg.pos := by
  cases arg with
  | plain e => exact body.self
  | lambda pos param body => exact ⟨_, isFrom, rfl⟩

/-- An expression stands where its first part does, and so does a number behind a minus. -/
theorem Derives.isAt {t : Tier} {levels : Nat} {under : Option Nat}
    (h : Derives tokens t levels under e) : e.IsAt tokens := by
  induction h with
  | bool mem | int mem | real mem | text mem | name mem => exact .leaf mem rfl rfl rfl
  | call mem isFrom _ ih =>
    exact .of_parts ⟨_, mem, rfl⟩ (fun arg inside => exists_token (isFrom arg inside) (ih arg inside))
      (List.forall_mem_map.2 ih)
  | array mem _ ih => exact .of_parts ⟨_, mem, rfl⟩ (List.forall_mem_nil _) ih
  | bracket _ ih | whole _ ih | begins _ _ ih | ends _ ih => exact ih
  | member _ ih =>
    exact .of_parts ih.self (List.forall_mem_nil _) (List.forall_mem_singleton.2 ih)
  | method _ isFrom _ ih ihArgs =>
    exact .of_parts ih.self (fun arg mem => exists_token (isFrom arg mem) (ihArgs arg mem))
      (List.forall_mem_cons.2 ⟨ih, List.forall_mem_map.2 ihArgs⟩)
  | index _ _ ih ihIndex =>
    exact .of_parts ih.self (List.forall_mem_nil _)
      (List.forall_mem_cons.2 ⟨ih, List.forall_mem_singleton.2 ihIndex⟩)
  | prefixed mem _ _ ih =>
    unfold ExprParser.applyUnary
    split
    · exact .leaf mem rfl rfl rfl
    · exact .leaf mem rfl rfl rfl
    · exact .of_parts ⟨_, mem, rfl⟩ (List.forall_mem_nil _) (List.forall_mem_singleton.2 ih)
  | link _ _ _ ih ihRight =>
    exact .of_parts ih.self (List.forall_mem_nil _)
      (List.forall_mem_cons.2 ⟨ih, List.forall_mem_singleton.2 ihRight⟩)
  | @logical op levels first rest _ _ ih =>
    exact .of_parts (ih first List.mem_cons_self).self (List.forall_mem_nil _) ih
  | choice _ _ _ ih ihYes ihNo =>
    exact .of_parts ih.self (List.forall_mem_nil _) (List.forall_mem_cons.2
      ⟨ih, List.forall_mem_cons.2 ⟨ihYes, List.forall_mem_singleton.2 ihNo⟩⟩)

end tokens

end Expr

/-! ## Errors of the compiler -/

/-- What is wrong, if anything is, stands at one of the places. -/
def FailsAt {α : Type} (places : Nat → Prop) (r : Except CompileError α) : Prop :=
  ∀ e, r = .error e → places e.position

namespace FailsAt

variable {α β : Type} {places places' : Nat → Prop} {x : Except CompileError α}

theorem ok (a : α) : FailsAt places (.ok a) := by
  rintro e ⟨⟩

theorem error {e : CompileError} (here : places e.position) :
    FailsAt places (.error e : Except CompileError α) := by
  rintro _ ⟨⟩
  exact here

theorem mono (h : FailsAt places x) (more : ∀ pos, places pos → places' pos) : FailsAt places' x :=
  fun e failed => more _ (h e failed)

theorem bind_of_ok {f : α → Except CompileError β} (h : FailsAt places x)
    (next : ∀ a, x = .ok a → FailsAt places (f a)) : FailsAt places (x >>= f) := by
  cases x with
  | error e => exact .error (h e rfl)
  | ok a => exact next a rfl

theorem bind {f : α → Except CompileError β} (h : FailsAt places x)
    (next : ∀ a, FailsAt places (f a)) : FailsAt places (x >>= f) :=
  h.bind_of_ok fun a _ => next a

theorem bindOption {x : Except CompileError (Option α)} {f : Option α → Except CompileError β}
    (h : FailsAt places x) (absent : FailsAt places (f none))
    (found : ∀ a, FailsAt places (f (some a))) : FailsAt places (x >>= f) := by
  refine h.bind fun o => ?_
  cases o with
  | none => exact absent
  | some a => exact found a

theorem map {f : α → β} (h : FailsAt places x) : FailsAt places (f <$> x) := by
  cases x with
  | error e => exact .error (h e rfl)
  | ok a => exact .ok (f a)

theorem mapM {f : α → Except CompileError β} {as : List α}
    (each : ∀ a ∈ as, FailsAt places (f a)) : FailsAt places (as.mapM f) := by
  induction as with
  | nil => exact .ok []
  | cons a as ih =>
    obtain ⟨first, others⟩ := List.forall_mem_cons.1 each
    rw [List.mapM_cons]
    exact first.bind fun b => (ih others).bind fun bs => .ok (b :: bs)

end FailsAt

namespace Typing

variable {α : Type} {places : Nat → Prop} {schema : Schema} {scopes : Scopes} {pos : Nat}

/-- Whether errors of a pending expression stand at the places, its own among them. -/
structure PendingAt (places : Nat → Prop) (p : Pending) : Prop where
  pos : places p.pos
  compile : ∀ scopes, FailsAt places (p.compile scopes)

section operations

variable (here : places pos)

include here

theorem identifier_failsAt (name : String) : FailsAt places (identifier scopes name pos) := by
  unfold identifier
  split
  · exact .ok _
  · exact .error here

theorem constant?_failsAt (space member : String) :
    FailsAt places (constant? schema scopes space member pos) := by
  unfold constant?
  split
  · exact .ok _
  · split
    · split
      · exact .ok _
      · exact .ok _
      · exact .error here
    · split
      · exact .ok _
      · split
        · exact .ok _
        · exact .error here

theorem member_failsAt (target : Typed) (name : String) :
    FailsAt places (member target name pos) := by
  unfold member
  dsimp only
  split
  · split
    · exact .ok _
    · exact .error here
  all_goals first | exact .ok _ | exact .error here

theorem index_failsAt (target i : Typed) : FailsAt places (index target i pos) := by
  unfold index
  dsimp only
  split
  all_goals first | exact .ok _ | exact .error here

theorem unary_failsAt (op : UnaryOp) (operand : Typed) :
    FailsAt places (unary op operand pos) := by
  unfold unary
  dsimp only
  split
  all_goals first | exact .ok _ | exact .error here

theorem binary_failsAt (op : BinaryOp) (left right : Typed) :
    FailsAt places (binary op left right pos) := by
  unfold binary
  dsimp only
  split
  · split
    · exact .ok _
    · exact .error here
  · split
    · split
      · exact .ok _
      · exact .error here
    · split
      · split
        · exact .ok _
        · exact .ok _
      · exact .error here

end operations

/-! ### Pending expressions -/

section pending

variable {p : Pending} (h : PendingAt places p)

include h

theorem alone_failsAt : FailsAt places (alone p scopes) := by
  unfold alone
  split
  · exact .error h.pos
  · exact h.compile scopes

theorem onElements_failsAt (ty : Ty) : FailsAt places (onElements p ty scopes) := h.compile _

theorem testing_failsAt (ty : Ty) : FailsAt places (testing p ty scopes) := by
  refine (onElements_failsAt h ty).bind fun typed => ?_
  dsimp only
  split
  · exact .ok _
  · exact .error h.pos

end pending

theorem operands_failsAt {op : LogicalOp} {ps : List Pending}
    (each : ∀ p ∈ ps, PendingAt places p) : FailsAt places (operands op scopes ps) := by
  induction ps with
  | nil => exact .ok _
  | cons p ps ih =>
    obtain ⟨first, others⟩ := List.forall_mem_cons.1 each
    refine (alone_failsAt first).bind fun typed => ?_
    dsimp only
    split
    · exact .error first.pos
    · exact (ih others).bind fun _ => .ok _

theorem choice_failsAt {condition yes no : Pending} (hc : PendingAt places condition)
    (hy : PendingAt places yes) (hn : PendingAt places no) :
    FailsAt places (choice condition yes no scopes) := by
  refine (alone_failsAt hc).bind fun typed => ?_
  dsimp only
  split
  · exact .error hc.pos
  · refine (alone_failsAt hy).bind fun y => (alone_failsAt hn).bind fun n => ?_
    split
    · exact .ok _
    · exact .error hn.pos

theorem commonType_failsAt {common : Ty} {typed : List (Nat × Ty)}
    (each : ∀ place ∈ typed, places place.1) : FailsAt places (commonType common typed) := by
  induction typed generalizing common with
  | nil => exact .ok _
  | cons place typed ih =>
    obtain ⟨first, others⟩ := List.forall_mem_cons.1 each
    unfold commonType
    split
    · exact ih others
    · exact .error first

theorem array_failsAt {items : List Pending} (here : places pos)
    (each : ∀ p ∈ items, PendingAt places p) : FailsAt places (array items scopes pos) := by
  refine (FailsAt.mapM fun p mem => alone_failsAt (each p mem)).bind fun typed => ?_
  split
  · exact .error here
  · rename_i first rest zipped
    have places : ∀ place ∈ rest, places place.1 := by
      intro place mem
      have inside : place ∈ (items.map Pending.pos).zip (typed.map Prod.snd) :=
        zipped ▸ List.mem_cons_of_mem _ mem
      obtain ⟨p, isItem, same⟩ := List.mem_map.1 (List.of_mem_zip inside).1
      exact same ▸ (each p isItem).pos
    refine (commonType_failsAt places).bind fun common => ?_
    split
    · exact .ok _
    · exact .error here

/-! ### Methods and helpers -/

theorem wantedText_failsAt {p : Pending} (here : places pos) (h : PendingAt places p)
    (name : String) : FailsAt places (wantedText name p scopes pos) := by
  refine (alone_failsAt h).bind fun typed => ?_
  dsimp only
  split
  · exact .ok _
  · exact .error here

section methods

variable {args : List Pending} (here : places pos) (each : ∀ p ∈ args, PendingAt places p)

include here each

theorem textMethod_failsAt (t : Term) (name : String) :
    FailsAt places (textMethod t name args scopes pos) := by
  unfold textMethod
  split
  · exact (wantedText_failsAt here (each _ List.mem_cons_self) name).bind fun _ => .ok _
  · have mode := each _ (List.mem_cons_of_mem _ List.mem_cons_self)
    refine (wantedText_failsAt here (each _ List.mem_cons_self) name).bind fun wanted => ?_
    refine (alone_failsAt mode).bind fun typed => ?_
    dsimp only
    split
    · exact .error mode.pos
    · exact .ok _
  · exact .ok _
  · exact .ok _

theorem statMethod_failsAt (t : Term) (name : String) :
    FailsAt places (statMethod t name args scopes pos) := by
  unfold statMethod
  split
  · refine (alone_failsAt (each _ List.mem_cons_self)).bind fun typed => ?_
    dsimp only
    split
    · exact .ok _
    · exact .error here
  · exact .ok _

theorem sequenceMethod_failsAt (t : Term) (ty elem : Ty) (name : String) :
    FailsAt places (sequenceMethod t ty elem name args scopes pos) := by
  have test (q : Query) (result : Ty) {p : Pending} (h : PendingAt places p) :
      FailsAt places (do
        return some (Term.query q t (← testing p elem scopes), result) :
        Except CompileError (Option Typed)) :=
    (testing_failsAt h elem).bind fun _ => .ok _
  unfold sequenceMethod
  dsimp only
  split
  · exact .ok _
  · exact test _ _ (each _ List.mem_cons_self)
  · exact .ok _
  · exact test _ _ (each _ List.mem_cons_self)
  · exact test _ _ (each _ List.mem_cons_self)
  · exact test _ _ (each _ List.mem_cons_self)
  · exact .ok _
  · exact test _ _ (each _ List.mem_cons_self)
  · refine (onElements_failsAt (each _ List.mem_cons_self) elem).bind fun typed => ?_
    split
    · exact .ok _
    · exact .error here
  · split
    · exact .ok _
    · exact .error here
  · refine (onElements_failsAt (each _ List.mem_cons_self) elem).bind fun typed => ?_
    split
    · exact .ok _
    · exact .error here
  · refine (alone_failsAt (each _ List.mem_cons_self)).bind fun typed => ?_
    split
    · exact .error here
    · exact .error here
    · exact .ok _
  · exact .ok _
  · exact .ok _

theorem method_failsAt (target : Typed) (name : String) :
    FailsAt places (method target name args scopes pos) := by
  unfold method
  dsimp only
  split
  · exact (textMethod_failsAt here each _ _).bindOption (.error here) fun _ => .ok _
  · exact (statMethod_failsAt here each _ _).bindOption (.error here) fun _ => .ok _
  · exact (statMethod_failsAt here each _ _).bindOption (.error here) fun _ => .ok _
  · exact (sequenceMethod_failsAt here each _ _ _ _).bindOption (.error here) fun _ => .ok _
  · exact .error here

end methods

theorem fixedArgs_failsAt {params : List Ty} {args : List (Pending × Option Typed)}
    (each : ∀ arg ∈ args, PendingAt places arg.1) :
    FailsAt places (fixedArgs scopes params args) := by
  induction params generalizing args with
  | nil =>
    unfold fixedArgs
    exact .ok _
  | cons param params ih =>
    cases args with
    | nil =>
      unfold fixedArgs
      exact .ok _
    | cons arg args =>
      obtain ⟨p, typed⟩ := arg
      obtain ⟨first, others⟩ := List.forall_mem_cons.1 each
      have rest (arg : HelperArg Term) : FailsAt places (do
          return arg :: (← fixedArgs scopes params args) :
          Except CompileError (List (HelperArg Term))) :=
        (ih others).bind fun _ => .ok _
      unfold fixedArgs
      split
      · exact rest _
      · exact (testing_failsAt first _).map.bind rest
      · exact .error first.pos

theorem helperCall_failsAt {args : List Pending} (here : places pos)
    (each : ∀ p ∈ args, PendingAt places p) (name : String) :
    FailsAt places (helperCall schema name args scopes pos) := by
  unfold helperCall
  split
  · exact .error here
  · refine (FailsAt.mapM fun p mem => ?_).bind fun typed => ?_
    · split
      · exact .ok _
      · exact ((each p mem).compile scopes).map
    · dsimp only
      split
      · exact .error here
      · have zipped : ∀ arg ∈ args.zip typed, PendingAt places arg.1 :=
          fun arg mem => each _ (List.of_mem_zip mem).1
        exact (fixedArgs_failsAt zipped).bind fun _ => .ok _

/-! ### Expressions -/

theorem pendingArg_at {e : Expr} {arg : Arg Expr} (mem : arg ∈ e.args)
    (ih : ∀ scopes, FailsAt e.HasPlace (arg.body.compile schema scopes)) :
    PendingAt e.HasPlace (pendingArg schema arg) := by
  have here := Expr.HasPlace.of_arg mem
  cases arg with
  | plain body => exact ⟨here, ih⟩
  | lambda pos param body => exact ⟨here, ih⟩

/-- Errors stand at a node of the tree, or at a lambda within it. -/
theorem compile_failsAt (e : Expr) (scopes : Scopes) :
    FailsAt e.HasPlace (e.compile schema scopes) := by
  induction e using Expr.induction generalizing scopes with
  | step e ih =>
    have here := Expr.HasPlace.self e
    have part {inner : Expr} (mem : inner ∈ e.parts) (scopes : Scopes) :
        FailsAt e.HasPlace (inner.compile schema scopes) :=
      (ih inner mem scopes).mono fun _ => .of_part mem
    have item {inner : Expr} (mem : inner ∈ e.parts) : PendingAt e.HasPlace (pending schema inner) :=
      ⟨.of_part mem (.self inner), part mem⟩
    cases e with
    | bool | int | real | text =>
      rw [Expr.compile]
      exact .ok _
    | name pos name =>
      rw [Expr.compile]
      exact identifier_failsAt here name
    | member target field =>
      have inner : FailsAt (Expr.member target field).HasPlace (do
          member (← target.compile schema scopes) field target.pos) :=
        (part (List.mem_singleton_self target) scopes).bind fun typed =>
          member_failsAt here typed field
      rw [Expr.compile]
      split
      · exact (constant?_failsAt here _ field).bindOption inner fun _ => .ok _
      · exact inner
    | call pos name args =>
      have pendings : ∀ p ∈ args.map (pendingArg schema), PendingAt _ p :=
        List.forall_mem_map.2 fun arg mem =>
          pendingArg_at (e := .call pos name args) mem (part (List.mem_map_of_mem mem))
      rw [Expr.compile, pendingArgs_eq_map]
      split
      · split
        · rename_i condition yes no same
          rw [same] at pendings
          obtain ⟨hc, others⟩ := List.forall_mem_cons.1 pendings
          obtain ⟨hy, others⟩ := List.forall_mem_cons.1 others
          exact choice_failsAt hc hy (List.forall_mem_singleton.1 others)
        · exact .error here
      · exact helperCall_failsAt here pendings name
    | method target name args =>
      have pendings : ∀ p ∈ args.map (pendingArg schema), PendingAt _ p :=
        List.forall_mem_map.2 fun arg mem =>
          pendingArg_at (e := .method target name args) mem
            (part (List.mem_cons_of_mem _ (List.mem_map_of_mem mem)))
      rw [Expr.compile, pendingArgs_eq_map]
      exact (part List.mem_cons_self scopes).bind fun t => method_failsAt here pendings t name
    | index target i =>
      rw [Expr.compile]
      exact (part List.mem_cons_self scopes).bind fun t =>
        (part (List.mem_cons_of_mem _ List.mem_cons_self) scopes).bind fun i =>
          index_failsAt here t i
    | unary pos op operand =>
      rw [Expr.compile]
      exact (part List.mem_cons_self scopes).bind fun typed => unary_failsAt here op typed
    | binary op left right =>
      rw [Expr.compile]
      exact (part List.mem_cons_self scopes).bind fun l =>
        (part (List.mem_cons_of_mem _ List.mem_cons_self) scopes).bind fun r =>
          binary_failsAt here op l r
    | logical op first rest =>
      have each : ∀ p ∈ (first :: rest).map (pending schema), PendingAt _ p :=
        List.forall_mem_map.2 fun operand mem => item mem
      rw [Expr.compile, pendingItems_eq_map]
      exact (operands_failsAt each).bind fun _ => .ok _
    | choice condition yes no =>
      rw [Expr.compile]
      exact choice_failsAt (item List.mem_cons_self) (item (List.mem_cons_of_mem _ List.mem_cons_self))
        (item (List.mem_cons_of_mem _ (List.mem_cons_of_mem _ List.mem_cons_self)))
    | array pos items =>
      rw [Expr.compile, pendingItems_eq_map]
      exact array_failsAt here (List.forall_mem_map.2 fun e mem => item mem)

end Typing

/-! ## Places of a text -/

/-- Whether a position is that of something visible in the text, or the end of the text. -/
def Text.PointsInto (text : String) (pos : Nat) : Prop :=
  pos = text.length ∨ ∃ c, text.toList[pos]? = some c ∧ ¬isBlank c

namespace Token

theorem FoundAt.pointsInto {text : String} {pos : Nat} {found : Except CompileError.Cause Lexeme}
    (h : FoundAt text.toList pos found) : Text.PointsInto text pos := by
  obtain ⟨c, cs, stands, visible, -⟩ := h
  refine .inr ⟨c, ?_, visible⟩
  rw [← List.head?_drop, stands, List.head?_cons]

theorem finds_ofText (text : String) : Finds text.toList (ofText text) :=
  finds_ofCharsAt List.drop_zero

theorem ofText_failsAt (text : String) : FailsAt (Text.PointsInto text) (ofText text) := by
  intro e failed
  have found := finds_ofText text
  rw [failed] at found
  exact found.pointsInto

theorem found_of_ofText {text : String} {ts : List Token} (scanned : ofText text = .ok ts) :
    ∀ t ∈ ts, FoundAt text.toList t.pos (.ok t.lexeme) := by
  have found := finds_ofText text
  rwa [scanned] at found

end Token

open ExprParser in
theorem Expr.ofTokens_failsAt (stop : Nat) (ts : List Token) :
    FailsAt (IsPlace stop ts) (ofTokens stop ts) := by
  have gives := expression_follows maxLevels stop maxLevels ts (List.Subset.refl ts)
  refine FailsAt.bind_of_ok gives.fails fun p read => ?_
  split
  · exact .ok _
  · rename_i t rest same
    exact .error (.of_mem ((gives.reads p read).2 (same ▸ List.mem_cons_self)))

theorem Expr.ofText_failsAt (text : String) : FailsAt (Text.PointsInto text) (ofText text) := by
  refine (Token.ofText_failsAt text).bind_of_ok fun ts scanned => ?_
  refine (ofTokens_failsAt _ ts).mono ?_
  rintro pos (rfl | ⟨t, mem, rfl⟩)
  · exact .inl String.length_toList
  · exact (Token.found_of_ofText scanned t mem).pointsInto

/-- The tokens of an accepted text, with everything of its expression at one of them. -/
theorem Expr.isAt_of_ofText {text : String} {e : Expr} (h : ofText text = .ok e) :
    ∃ ts, Token.ofText text = .ok ts ∧
      (∀ t ∈ ts, Token.FoundAt text.toList t.pos (.ok t.lexeme)) ∧ e.IsAt ts := by
  obtain ⟨ts, scanned, derives⟩ := derives_of_ofText h
  exact ⟨ts, scanned, Token.found_of_ofText scanned, derives.isAt⟩

theorem Expr.pointsInto_of_ofText {text : String} {e : Expr} (h : ofText text = .ok e) {pos : Nat}
    (place : e.HasPlace pos) : Text.PointsInto text pos := by
  obtain ⟨ts, -, found, isAt⟩ := isAt_of_ofText h
  obtain ⟨t, mem, rfl⟩ := isAt pos place
  exact (found t mem).pointsInto

namespace Schema

theorem compile_failsAt (schema : Schema) (text : String) :
    FailsAt (Text.PointsInto text) (schema.compile text) := by
  refine (Expr.ofText_failsAt text).bind_of_ok fun e read => ?_
  have places {pos : Nat} (place : e.HasPlace pos) := Expr.pointsInto_of_ofText read place
  refine ((Typing.compile_failsAt e []).mono fun _ => places).bind fun typed => ?_
  dsimp only
  split
  · exact .ok _
  · exact .error (places (.self e))

/-- Errors of every stage point to something visible in the text or to its end, and the nodes of an
accepted expression, and the lambdas within them, to where its tokens begin. -/
theorem positions_in_text :
    (∀ (schema : Schema) (text : String) (e : CompileError), schema.compile text = .error e →
      e.position = text.length ∨
        ∃ c, text.toList[e.position]? = some c ∧ ¬Text.isBlank c) ∧
    ∀ (text : String) (e : Expr), Expr.ofText text = .ok e →
      ∃ ts, Token.ofText text = .ok ts ∧
        (∀ t ∈ ts, Token.FoundAt text.toList t.pos (.ok t.lexeme)) ∧
        ∀ node : Expr, node.IsIn e → (∃ t ∈ ts, t.pos = node.pos) ∧
          ∀ arg ∈ node.args, ∃ t ∈ ts, t.pos = arg.pos := by
  refine ⟨compile_failsAt, fun text e read => ?_⟩
  obtain ⟨ts, scanned, found, isAt⟩ := Expr.isAt_of_ofText read
  refine ⟨ts, scanned, found, fun node inside => ⟨?_, fun arg mem => ?_⟩⟩
  · exact isAt _ ⟨node, inside, .inl rfl⟩
  · exact isAt _ ⟨node, inside, .inr ⟨arg, mem, rfl⟩⟩

def misspelt : String := " Tags.Any(t => (t.Lenght) == 3)"

theorem positions_in_misspelt :
    (∃ error, standard.compile misspelt = .error error ∧ (error.position = misspelt.length ∨
      ∃ c, misspelt.toList[error.position]? = some c ∧ ¬Text.isBlank c)) ∧
    ∃ e, Expr.ofText misspelt = .ok e ∧ ∃ ts, Token.ofText misspelt = .ok ts ∧
      (∀ t ∈ ts, Token.FoundAt misspelt.toList t.pos (.ok t.lexeme)) ∧
      ∀ node : Expr, node.IsIn e → (∃ t ∈ ts, t.pos = node.pos) ∧
        ∀ arg ∈ node.args, ∃ t ∈ ts, t.pos = arg.pos := by
  constructor
  · have rejected : ¬(standard.compile misspelt).isOk := by decide +kernel
    cases failed : standard.compile misspelt with
    | ok t => exact absurd (failed ▸ rfl) rejected
    | error error => exact ⟨error, rfl, positions_in_text.1 standard misspelt error failed⟩
  · have accepted : (Expr.ofText misspelt).isOk := by decide +kernel
    obtain ⟨e, read⟩ := Typing.ok_of_isOk accepted
    exact ⟨e, read, positions_in_text.2 misspelt e read⟩

end Schema

end LootFilter
