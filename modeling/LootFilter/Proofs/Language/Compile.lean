import LootFilter.Proofs.Language.Rules

/-!
# Compiling follows the rules

Whatever is accepted is compiled by one of the typing rules.
-/

namespace LootFilter

namespace Typing

section computations

variable {ε α β γ : Type}

theorem bind_eq_ok {x : Except ε α} {f : α → Except ε β} {b : β} :
    x >>= f = .ok b ↔ ∃ a, x = .ok a ∧ f a = .ok b := by
  cases x with
  | ok a =>
    constructor
    · exact fun h => ⟨a, rfl, h⟩
    · rintro ⟨_, ⟨⟩, h⟩
      exact h
  | error e =>
    constructor
    · exact nofun
    · rintro ⟨_, ⟨⟩, -⟩

theorem pure_eq_ok {a b : α} : (pure a : Except ε α) = .ok b ↔ a = b :=
  ⟨Except.ok.inj, congrArg Except.ok⟩

theorem map_eq_ok {x : Except ε α} {f : α → β} {b : β} :
    f <$> x = .ok b ↔ ∃ a, x = .ok a ∧ f a = b := by
  rw [map_eq_pure_bind, bind_eq_ok]
  simp only [pure_eq_ok]

theorem ok_of_isOk {x : Except ε α} (h : x.isOk) : ∃ a, x = .ok a := by
  cases x with
  | ok a => exact ⟨a, rfl⟩
  | error e => cases h

theorem mapM_forall₂ {f : α → Except ε β} {as : List α} {bs : List β} (h : as.mapM f = .ok bs) :
    List.Forall₂ (fun a b => f a = .ok b) as bs := by
  induction as generalizing bs with
  | nil =>
    cases h
    exact .nil
  | cons a as ih =>
    rw [List.mapM_cons] at h
    simp only [bind_eq_ok, pure_eq_ok] at h
    obtain ⟨b, first, bs, rest, rfl⟩ := h
    exact .cons first (ih rest)

end computations

/-! ## Operations -/

section operations

variable {t i l r : Term} {ty lt rt indexTy : Ty} {typed : Typed} {name : String} {pos : Nat}

theorem member_rule (h : member (t, ty) name pos = .ok typed) : MemberRule t ty name typed := by
  unfold member at h
  dsimp only at h
  split at h
  · split at h
    · rename_i found
      cases h
      exact .field found
    · cases h
  · cases h
    exact .textLength
  · cases h
    exact .count rfl (.inl rfl)
  · cases h
    exact .count rfl (.inr rfl)
  · cases h
    exact .count rfl (.inl rfl)
  · cases h
    exact .count rfl (.inr rfl)
  · cases h
    exact .statCount (.inl rfl)
  · cases h
    exact .statCount (.inr rfl)
  · cases h

theorem index_rule (h : index (t, ty) (i, indexTy) pos = .ok typed) :
    IndexRule t i ty indexTy typed := by
  unfold index at h
  dsimp only at h
  split at h
  · cases h
    exact .element rfl
  · cases h
    exact .element rfl
  · cases h
    exact .intStat
  · cases h
    exact .realStat
  · cases h

theorem unary_rule {op : UnaryOp} (h : unary op (t, ty) pos = .ok typed) :
    UnaryRule t op ty typed := by
  unfold unary at h
  dsimp only at h
  split at h
  · cases h
    exact .not
  · cases h
    exact (.negate rfl : UnaryRule t .negate .int _)
  · cases h
    exact (.negate rfl : UnaryRule t .negate .real _)
  · cases h

theorem binary_rule {op : BinaryOp} (h : binary op (l, lt) (r, rt) pos = .ok typed) :
    BinaryRule l r op lt rt typed := by
  cases op with
  | compare c =>
    unfold binary at h
    dsimp only at h
    split at h
    · cases h
      exact .compare ‹_›
    · cases h
  | compute a =>
    unfold binary at h
    dsimp only at h
    split at h
    · rename_i joins
      split at h
      · rename_i printable
        cases h
        simp only [Bool.and_eq_true, Bool.or_eq_true, decide_eq_true_eq] at joins printable
        obtain ⟨rfl, joins⟩ := joins
        exact .join joins printable.1 printable.2
      · cases h
    · split at h
      · rename_i numeric
        rw [Bool.and_eq_true] at numeric
        split at h
        · rename_i real
          cases h
          simp only [Bool.or_eq_true, decide_eq_true_eq] at real
          exact .real numeric.1 numeric.2 real
        · rename_i whole
          cases h
          simp only [Bool.or_eq_true, decide_eq_true_eq, not_or] at whole
          obtain ⟨rfl, rfl⟩ := (⟨int_of_isNumeric numeric.1 whole.1,
            int_of_isNumeric numeric.2 whole.2⟩ : lt = .int ∧ rt = .int)
          exact .whole
      · cases h
where
  int_of_isNumeric {ty : Ty} (numeric : ty.isNumeric) (whole : ty ≠ .real) : ty = .int := by
    unfold Ty.isNumeric at numeric
    split at numeric
    · rfl
    · exact (whole rfl).elim
    · cases numeric

end operations

/-! ## Pending expressions -/

def pending (schema : Schema) (e : Expr) : Pending := ⟨e.pos, none, e.compile schema⟩

def pendingArg (schema : Schema) : Arg Expr → Pending
  | .plain e => pending schema e
  | .lambda pos param body => ⟨pos, some param, body.compile schema⟩

variable {schema : Schema} {scopes : Scopes}

theorem pendingItems_eq_map (items : List Expr) :
    Expr.pendingItems schema items = items.map (pending schema) := by
  induction items with
  | nil => rfl
  | cons e items ih => rw [Expr.pendingItems, ih, List.map_cons, pending]

theorem pendingArgs_eq_map (args : List (Arg Expr)) :
    Expr.pendingArgs schema args = args.map (pendingArg schema) := by
  induction args with
  | nil => rfl
  | cons arg args ih =>
    cases arg with
    | plain e => rw [Expr.pendingArgs, ih, List.map_cons, pendingArg, pending]
    | lambda pos param body => rw [Expr.pendingArgs, ih, List.map_cons, pendingArg]

theorem alone_plain {arg : Arg Expr} {typed : Typed}
    (h : alone (pendingArg schema arg) scopes = .ok typed) :
    ∃ e, arg = .plain e ∧ e.compile schema scopes = .ok typed := by
  cases arg with
  | plain e => exact ⟨e, rfl, h⟩
  | lambda pos param body => cases h

theorem onElements_eq (arg : Arg Expr) (ty : Ty) :
    onElements (pendingArg schema arg) ty scopes =
      arg.body.compile schema (arg.scope ty :: scopes) := by
  cases arg <;> rfl

theorem testing_ok {arg : Arg Expr} {ty : Ty} {body : Term}
    (h : testing (pendingArg schema arg) ty scopes = .ok body) :
    arg.body.compile schema (arg.scope ty :: scopes) = .ok (body, .bool) := by
  unfold testing at h
  simp only [onElements_eq, bind_eq_ok] at h
  obtain ⟨⟨t, found⟩, compiled, h⟩ := h
  dsimp only at h
  split at h
  · rename_i bool
    cases h
    rw [compiled, bool]
  · cases h

theorem operands_rule {op : LogicalOp} {items : List Expr} {ts : List Term}
    (h : operands op scopes (items.map (pending schema)) = .ok ts) :
    ∃ us, List.Forall₂ (fun e t => e.compile schema scopes = .ok (t, .bool)) items us ∧
      ts = us.flatMap (flatten op) := by
  induction items generalizing ts with
  | nil =>
    cases h
    exact ⟨[], .nil, rfl⟩
  | cons e items ih =>
    simp only [List.map_cons, operands, bind_eq_ok] at h
    obtain ⟨⟨t, ty⟩, compiled, h⟩ := h
    by_cases bool : ty = .bool
    · subst bool
      simp only [ne_eq, not_true_eq_false, if_false, bind_eq_ok, pure_eq_ok] at h
      obtain ⟨rest, others, rfl⟩ := h
      obtain ⟨us, each, rfl⟩ := ih others
      exact ⟨t :: us, .cons compiled each, rfl⟩
    · simp only [ne_eq, bool, not_false_eq_true, if_true, bind_eq_ok] at h
      obtain ⟨_, rejected, _⟩ := h
      cases rejected

theorem choice_rule {condition yes no : Arg Expr} {typed : Typed}
    (h : choice (pendingArg schema condition) (pendingArg schema yes) (pendingArg schema no)
      scopes = .ok typed) :
    ∃ c y n, condition = .plain c ∧ yes = .plain y ∧ no = .plain n ∧
      ChoiceRule schema scopes c y n typed := by
  simp only [choice, bind_eq_ok] at h
  obtain ⟨⟨c, conditionTy⟩, compiled, h⟩ := h
  obtain ⟨condition, rfl, compiled⟩ := alone_plain compiled
  by_cases bool : conditionTy = .bool
  · subst bool
    simp only [ne_eq, not_true_eq_false, if_false, bind_eq_ok] at h
    obtain ⟨y, first, n, second, h⟩ := h
    obtain ⟨yes, rfl, first⟩ := alone_plain first
    obtain ⟨no, rfl, second⟩ := alone_plain second
    split at h
    · rename_i joined
      cases h
      exact ⟨condition, yes, no, rfl, rfl, rfl, .choice compiled first second joined⟩
    · cases h
  · simp only [ne_eq, bool, not_false_eq_true, if_true, bind_eq_ok] at h
    obtain ⟨_, rejected, _⟩ := h
    cases rejected

theorem commonType_ok {places : List (Nat × Ty)} {first common : Ty}
    (h : commonType first places = .ok common) :
    (places.map Prod.snd).foldlM Ty.join? first = some common := by
  induction places generalizing first with
  | nil =>
    cases h
    rfl
  | cons place places ih =>
    obtain ⟨pos, ty⟩ := place
    unfold commonType at h
    split at h
    · rename_i joined
      simp only [List.map_cons, List.foldlM_cons, joined]
      exact ih h
    · cases h

theorem array_rule {items : List Expr} {pos : Nat} {typed : Typed}
    (h : array (items.map (pending schema)) scopes pos = .ok typed) :
    Rule schema scopes (.array pos items) typed := by
  simp only [array, bind_eq_ok] at h
  obtain ⟨elements, compiled, h⟩ := h
  have each : List.Forall₂ (fun e t => e.compile schema scopes = .ok t) items elements :=
    List.forall₂_map_left_iff.1 (mapM_forall₂ compiled)
  have types : (((items.map (pending schema)).map Pending.pos).zip
      (elements.map Prod.snd)).map Prod.snd = elements.map Prod.snd :=
    List.map_snd_zip (by simp [each.length_eq])
  split at h
  · cases h
  · rename_i first rest places
    simp only [bind_eq_ok] at h
    obtain ⟨common, joined, h⟩ := h
    split at h
    · rename_i found
      cases h
      rw [places, List.map_cons] at types
      refine .array each ?_ found
      rw [← types]
      exact commonType_ok joined
    · cases h

/-! ## Methods -/

section methods

variable {t : Term} {ty elem : Ty} {name : String} {args : List (Arg Expr)} {pos : Nat}
  {typed : Typed}

theorem wantedText_ok {arg : Arg Expr} {wanted : Term}
    (h : wantedText name (pendingArg schema arg) scopes pos = .ok wanted) :
    ∃ e, arg = .plain e ∧ e.compile schema scopes = .ok (wanted, .text) := by
  simp only [wantedText, bind_eq_ok] at h
  obtain ⟨⟨w, ty⟩, compiled, h⟩ := h
  obtain ⟨e, rfl, compiled⟩ := alone_plain compiled
  dsimp only at h
  split at h
  · rename_i text
    cases h
    subst text
    exact ⟨e, rfl, compiled⟩
  · cases h

theorem textMethod_rule
    (h : textMethod t name (args.map (pendingArg schema)) scopes pos = .ok (some typed)) :
    MethodRule schema scopes t .text name args typed := by
  unfold textMethod at h
  split at h
  · rename_i found single
    obtain ⟨arg, rfl, rfl⟩ := List.map_eq_singleton_iff.1 single
    simp only [bind_eq_ok, pure_eq_ok] at h
    obtain ⟨w, wanted, ⟨⟩⟩ := h
    obtain ⟨e, rfl, compiled⟩ := wantedText_ok wanted
    exact .textTest found compiled
  · rename_i found two
    obtain ⟨arg, rest, rfl, rfl, single⟩ := List.map_eq_cons_iff.1 two
    obtain ⟨modeArg, rfl, rfl⟩ := List.map_eq_singleton_iff.1 single
    simp only [bind_eq_ok] at h
    obtain ⟨w, wanted, ⟨m, modeTy⟩, compiledMode, h⟩ := h
    obtain ⟨e, rfl, compiled⟩ := wantedText_ok wanted
    obtain ⟨mode, rfl, compiledMode⟩ := alone_plain compiledMode
    by_cases comparison : modeTy = .comparison
    · subst comparison
      simp only [ne_eq, not_true_eq_false, if_false, pure_eq_ok] at h
      cases h
      exact .textTestMode found compiled compiledMode
    · simp only [ne_eq, comparison, not_false_eq_true, if_true, bind_eq_ok] at h
      obtain ⟨_, rejected, _⟩ := h
      cases rejected
  · rename_i found none
    obtain rfl := List.map_eq_nil_iff.1 none
    cases h
    exact .textMap found
  · cases h

theorem statMethod_rule (table : ty = .intStats ∨ ty = .realStats)
    (h : statMethod t name (args.map (pendingArg schema)) scopes pos = .ok (some typed)) :
    MethodRule schema scopes t ty name args typed := by
  unfold statMethod at h
  split at h
  · rename_i single
    obtain ⟨arg, rfl, rfl⟩ := List.map_eq_singleton_iff.1 single
    simp only [bind_eq_ok] at h
    obtain ⟨⟨key, keyTy⟩, compiled, h⟩ := h
    obtain ⟨e, rfl, compiled⟩ := alone_plain compiled
    dsimp only at h
    split at h
    · rename_i text
      cases h
      rw [text] at compiled
      exact .hasStat table compiled
    · cases h
  · cases h

theorem test_rule {q : Query} {arg : Arg Expr} {result : Ty} (sequence : ty.element? = some elem)
    (gives : q.Gives ty elem .bool result)
    (h : (do return some (.query q t (← testing (pendingArg schema arg) elem scopes), result)) =
      (.ok (some typed) : Except CompileError (Option Typed))) :
    MethodRule schema scopes t ty q.name [arg] typed := by
  simp only [bind_eq_ok, pure_eq_ok] at h
  obtain ⟨body, tested, ⟨⟩⟩ := h
  exact .query sequence gives (testing_ok tested)

theorem sequenceMethod_rule (sequence : ty.element? = some elem)
    (h : sequenceMethod t ty elem name (args.map (pendingArg schema)) scopes pos =
      .ok (some typed)) :
    MethodRule schema scopes t ty name args typed := by
  unfold sequenceMethod at h
  dsimp only at h
  split at h <;> rename_i shape
  · obtain rfl := List.map_eq_nil_iff.1 shape
    cases h
    exact .count sequence
  · obtain ⟨arg, rfl, rfl⟩ := List.map_eq_singleton_iff.1 shape
    exact test_rule sequence .count h
  · obtain rfl := List.map_eq_nil_iff.1 shape
    cases h
    exact .isNonempty sequence
  · obtain ⟨arg, rfl, rfl⟩ := List.map_eq_singleton_iff.1 shape
    exact test_rule sequence .any h
  · obtain ⟨arg, rfl, rfl⟩ := List.map_eq_singleton_iff.1 shape
    exact test_rule sequence .all h
  · obtain ⟨arg, rfl, rfl⟩ := List.map_eq_singleton_iff.1 shape
    exact test_rule sequence .filter h
  · obtain rfl := List.map_eq_nil_iff.1 shape
    cases h
    exact .first sequence
  · obtain ⟨arg, rfl, rfl⟩ := List.map_eq_singleton_iff.1 shape
    exact test_rule sequence .first h
  · obtain ⟨arg, rfl, rfl⟩ := List.map_eq_singleton_iff.1 shape
    simp only [bind_eq_ok, onElements_eq] at h
    obtain ⟨⟨body, mapped⟩, compiled, h⟩ := h
    dsimp only at h
    split at h
    · rename_i found
      cases h
      exact MethodRule.query (q := .map) sequence (.map found) compiled
    · cases h
  · obtain rfl := List.map_eq_nil_iff.1 shape
    split at h
    · rename_i numeric
      cases h
      exact .sum sequence numeric
    · cases h
  · obtain ⟨arg, rfl, rfl⟩ := List.map_eq_singleton_iff.1 shape
    simp only [bind_eq_ok, onElements_eq] at h
    obtain ⟨⟨body, mapped⟩, compiled, h⟩ := h
    dsimp only at h
    split at h
    · rename_i numeric
      cases h
      exact MethodRule.query (q := .sum _) sequence (.sum numeric) compiled
    · cases h
  · obtain ⟨arg, rfl, rfl⟩ := List.map_eq_singleton_iff.1 shape
    simp only [bind_eq_ok] at h
    obtain ⟨w, compiled, h⟩ := h
    obtain ⟨e, rfl, compiled⟩ := alone_plain compiled
    split at h
    · cases h
    · cases h
    · cases h
      exact .contains sequence compiled
  · obtain rfl := List.map_eq_nil_iff.1 shape
    split at h
    · rename_i mods
      cases h
      subst mods
      exact .modStats
    · cases h
  · cases h

theorem found_ok {found : Except CompileError (Option Typed)} {cause : CompileError.Cause}
    (h : (do match ← found with
      | some typed => return typed
      | none => reject pos cause) = .ok typed) : found = .ok (some typed) := by
  obtain ⟨answer, rfl, h⟩ := bind_eq_ok.1 h
  cases answer with
  | some other => exact congrArg (Except.ok ∘ some) (pure_eq_ok.1 h)
  | none => cases h

theorem method_rule
    (h : method (t, ty) name (args.map (pendingArg schema)) scopes pos = .ok typed) :
    MethodRule schema scopes t ty name args typed := by
  unfold method at h
  dsimp only at h
  split at h
  · exact textMethod_rule (found_ok h)
  · exact statMethod_rule (.inl rfl) (found_ok h)
  · exact statMethod_rule (.inr rfl) (found_ok h)
  · exact sequenceMethod_rule ‹_› (found_ok h)
  · cases found_ok h

end methods

/-! ## Calls of helpers -/

section calls

variable {args : List (Arg Expr)} {typed : List (Option Typed)} {helper : Helper} {tail : Tail}

theorem choose?_found {name : String} {types : List (Option Ty)} {helpers : List Helper}
    {start index : Nat} (h : choose? name types start helpers = some (index, helper, tail)) :
    (∃ n, index = start + n ∧ helpers[n]? = some helper) ∧ helper.name = name ∧
      acceptance? helper types = some tail := by
  induction helpers generalizing start with
  | nil => cases h
  | cons first helpers ih =>
    unfold choose? at h
    dsimp only at h
    split at h
    · rename_i accepted
      cases h
      split at accepted
      · exact ⟨⟨0, rfl, rfl⟩, ‹_›, accepted⟩
      · cases accepted
    · obtain ⟨⟨n, rfl, found⟩, rest⟩ := ih h
      exact ⟨⟨n + 1, by omega, found⟩, rest⟩

/-- What an argument of a helper is found to be before the helper is known. -/
inductive FoundArg (schema : Schema) (scopes : Scopes) : Arg Expr → Option Typed → Prop
  | plain {e : Expr} {t : Typed} : e.compile schema scopes = .ok t →
      FoundArg schema scopes (.plain e) (some t)
  | lambda {pos : Nat} {param : String} {body : Expr} :
      FoundArg schema scopes (.lambda pos param body) none

theorem foundArg_of_ok {arg : Arg Expr} {found : Option Typed}
    (h : (if (pendingArg schema arg).param.isSome then pure none
      else some <$> (pendingArg schema arg).compile scopes) = .ok found) :
    FoundArg schema scopes arg found := by
  cases arg with
  | plain e =>
    obtain ⟨t, compiled, rfl⟩ := map_eq_ok.1 h
    exact .plain compiled
  | lambda pos param body =>
    cases h
    exact .lambda

theorem FoundArg.ty {arg : Arg Expr} {found : Option Typed} (h : FoundArg schema scopes arg found) :
    found.map Prod.snd = arg.ty? schema scopes := by
  cases h with
  | plain compiled => simp only [Arg.ty?, Expr.ty?, compiled, Option.map_some]
  | lambda => rfl

theorem FoundArg.types (each : List.Forall₂ (FoundArg schema scopes) args typed) :
    typed.map (·.map Prod.snd) = args.map (Arg.ty? schema scopes) := by
  induction each with
  | nil => rfl
  | cons first _ ih => rw [List.map_cons, List.map_cons, first.ty, ih]

theorem fits_value {ty : Ty} {param : Ty} (h : fits param (some ty)) : param.accepts ty := by
  unfold fits at h
  split at h
  · cases h
  · rename_i found
    cases found
  · rename_i found
    cases found
    exact h

theorem fits_lambda {param : Ty} (h : fits param none) : ∃ elem, param = .criterion elem := by
  unfold fits at h
  split at h
  · exact ⟨_, rfl⟩
  · cases h
  · rename_i found
    cases found

def packed (tail : Tail) (typed : List (Option Typed)) : List (HelperArg Term) :=
  let further := typed.filterMap (·.map Prod.fst)
  match tail with
  | .absent => []
  | .asList => further.map .value
  | .asElements => [.value (.array further)]

theorem elements_rule {elem : ElemTy} (each : List.Forall₂ (FoundArg schema scopes) args typed)
    (fit : ∀ o ∈ typed, fits elem.toTy (o.map Prod.snd)) :
    List.Forall₂ (fun arg t => ArgRule schema scopes elem.toTy arg (.value t)) args
      (typed.filterMap (·.map Prod.fst)) := by
  induction each with
  | nil => exact .nil
  | cons first _ ih =>
    have rest := ih fun o mem => fit o (.tail _ mem)
    have fitting := fit _ (.head _)
    cases first with
    | plain compiled => exact .cons (.value compiled (fits_value fitting)) rest
    | lambda =>
      -- A lambda fits only a criterion, and no further argument is one.
      obtain ⟨_, criterion⟩ := fits_lambda fitting
      cases elem <;> cases criterion

theorem tail_rule (each : List.Forall₂ (FoundArg schema scopes) args typed)
    (accepted : acceptance? { helper with params := [] } (typed.map (·.map Prod.snd)) =
      some tail) :
    ArgsRule schema scopes helper.variadic tail [] args (packed tail typed) := by
  simp only [acceptance?, List.length_nil, Nat.not_lt_zero, decide_false, List.zip_nil_left,
    List.all_nil, Bool.not_true, Bool.or_self, Bool.false_eq_true, if_false, List.drop_zero]
    at accepted
  split at accepted
  · rename_i variadic shape
    obtain rfl := List.map_eq_nil_iff.1 shape
    cases accepted
    cases each
    rw [variadic]
    exact .absent
  · cases accepted
  · rename_i elem arg variadic shape
    obtain ⟨o, rfl, rfl⟩ := List.map_eq_singleton_iff.1 shape
    rw [variadic]
    split at accepted
    · rename_i fitting
      cases accepted
      obtain _ | ⟨first, ⟨⟩⟩ := each
      cases first with
      | plain compiled => exact .asList (.value compiled (fits_value fitting))
      | lambda =>
        obtain ⟨_, ⟨⟩⟩ := fits_lambda fitting
    · split at accepted
      · rename_i fitting
        cases accepted
        exact .asElements (elements_rule each fun o mem => List.mem_singleton.1 mem ▸ fitting)
      · cases accepted
  · rename_i elem variadic _
    rw [variadic]
    split at accepted
    · rename_i fitting
      cases accepted
      refine .asElements (elements_rule each fun o mem => ?_)
      exact List.all_eq_true.1 fitting _ (List.mem_map_of_mem mem)
    · cases accepted

theorem acceptance?_cons {param : Ty} {params : List Ty} {types : List (Option Ty)}
    (h : acceptance? { helper with params := param :: params } types = some tail) :
    ∃ ty rest, types = ty :: rest ∧ fits param ty ∧
      acceptance? { helper with params } rest = some tail := by
  cases types with
  | nil => simp [acceptance?] at h
  | cons ty rest =>
    refine ⟨ty, rest, rfl, ?_⟩
    by_cases fitting : fits param ty
    · simp only [acceptance?, List.length_cons, Nat.add_lt_add_iff_right, List.zip_cons_cons,
        List.all_cons, fitting, Bool.true_and, List.drop_succ_cons] at h
      exact ⟨fitting, h⟩
    · simp [acceptance?, fitting] at h

theorem args_rule (helper : Helper) {params : List Ty} {fixed : List (HelperArg Term)}
    (each : List.Forall₂ (FoundArg schema scopes) args typed)
    (accepted : acceptance? { helper with params } (typed.map (·.map Prod.snd)) = some tail)
    (h : fixedArgs scopes params ((args.map (pendingArg schema)).zip typed) = .ok fixed) :
    ArgsRule schema scopes helper.variadic tail params args
      (fixed ++ packed tail (typed.drop params.length)) := by
  -- On the parameters; what is left of the arguments behind the last of them is the tail.
  induction params generalizing args typed fixed with
  | nil =>
    cases h
    exact tail_rule each accepted
  | cons param params ih =>
    obtain ⟨ty, rest, types, fitting, others⟩ := acceptance?_cons accepted
    obtain ⟨o, typed, rfl, rfl, rfl⟩ := List.map_eq_cons_iff.1 types
    obtain _ | ⟨first, each⟩ := each
    cases first with
    | plain compiled =>
      simp only [List.map_cons, List.zip_cons_cons, fixedArgs, bind_eq_ok, pure_eq_ok] at h
      obtain ⟨_, rfl, fixed, further, rfl⟩ := h
      exact .fixed (.value compiled (fits_value fitting)) (ih each others further)
    | lambda =>
      obtain ⟨elem, rfl⟩ := fits_lambda fitting
      simp only [List.map_cons, List.zip_cons_cons, fixedArgs, bind_eq_ok, map_eq_ok,
        pure_eq_ok] at h
      obtain ⟨_, ⟨t, tested, rfl⟩, fixed, further, rfl⟩ := h
      exact .fixed (.lambda (testing_ok tested)) (ih each others further)

theorem helperCall_rule {name : String} {pos : Nat} {result : Typed} (other : name ≠ "iif")
    (h : helperCall schema name (args.map (pendingArg schema)) scopes pos = .ok result) :
    Rule schema scopes (.call pos name args) result := by
  unfold helperCall at h
  split at h
  · simp only [bind_eq_ok] at h
    obtain ⟨_, rejected, _⟩ := h
    cases rejected
  · simp only [bind_eq_ok] at h
    obtain ⟨typed, found, h⟩ := h
    have each : List.Forall₂ (FoundArg schema scopes) args typed :=
      (List.forall₂_map_left_iff.1 (mapM_forall₂ found)).imp fun _ _ => foundArg_of_ok
    split at h
    · cases h
    · rename_i index helper tail chosen
      simp only [bind_eq_ok, pure_eq_ok] at h
      obtain ⟨fixed, passed, rfl⟩ := h
      have accepted := (choose?_found chosen).2.2
      rw [FoundArg.types each] at chosen
      exact .call other chosen (args_rule helper each accepted passed)

end calls

/-! ## Expressions -/

/-- Whatever the compiler accepts follows one of the rules. -/
theorem compile_rule {e : Expr} {typed : Typed} (h : e.compile schema scopes = .ok typed) :
    Rule schema scopes e typed := by
  cases e with
  | bool pos b =>
    cases h
    exact .bool
  | int pos n =>
    cases h
    exact .int
  | real pos x =>
    cases h
    exact .real
  | text pos s =>
    cases h
    exact .text
  | name pos name =>
    rw [Expr.compile] at h
    unfold identifier at h
    split at h
    · rename_i resolved
      cases h
      exact .name resolved
    · cases h
  | member target name =>
    unfold Expr.compile at h
    -- Only a target that is a name can be that of a namespace.
    cases named : target.name? with
    | none =>
      simp only [named, pure_bind, bind_eq_ok] at h
      obtain ⟨⟨t, ty⟩, compiled, h⟩ := h
      exact .member (fun space found => nomatch named.symm.trans found) compiled (member_rule h)
    | some space =>
      simp only [named, bind_eq_ok] at h
      obtain ⟨constant, known, h⟩ := h
      cases constant with
      | some found =>
        cases h
        cases target with
        | name pos other =>
          cases named
          exact .constant known
        | _ => cases named
      | none =>
        obtain ⟨⟨t, ty⟩, compiled, h⟩ := bind_eq_ok.1 h
        refine .member (fun other found => ?_) compiled (member_rule h)
        cases named.symm.trans found
        exact known
  | call pos name args =>
    rw [Expr.compile, pendingArgs_eq_map] at h
    split at h
    · rename_i iif
      subst iif
      split at h
      · rename_i shape
        obtain ⟨c, rest, rfl, rfl, shape'⟩ := List.map_eq_cons_iff.1 shape
        obtain ⟨y, rest, rfl, rfl, shape''⟩ := List.map_eq_cons_iff.1 shape'
        obtain ⟨n, rfl, rfl⟩ := List.map_eq_singleton_iff.1 shape''
        obtain ⟨condition, yes, no, rfl, rfl, rfl, rule⟩ := choice_rule h
        exact .iif rule
      · cases h
    · exact helperCall_rule ‹_› h
  | method target name args =>
    simp only [Expr.compile, pendingArgs_eq_map, bind_eq_ok] at h
    obtain ⟨⟨t, ty⟩, compiled, h⟩ := h
    exact .method compiled (method_rule h)
  | index target i =>
    simp only [Expr.compile, bind_eq_ok] at h
    obtain ⟨⟨t, ty⟩, compiled, ⟨u, indexTy⟩, compiledIndex, h⟩ := h
    exact .index compiled compiledIndex (index_rule h)
  | unary pos op operand =>
    simp only [Expr.compile, bind_eq_ok] at h
    obtain ⟨⟨t, ty⟩, compiled, h⟩ := h
    exact .unary compiled (unary_rule h)
  | binary op left right =>
    simp only [Expr.compile, bind_eq_ok] at h
    obtain ⟨⟨l, lt⟩, compiled, ⟨r, rt⟩, compiledRight, h⟩ := h
    exact .binary compiled compiledRight (binary_rule h)
  | logical op first rest =>
    simp only [Expr.compile, pendingItems_eq_map, bind_eq_ok, pure_eq_ok] at h
    obtain ⟨ts, compiled, rfl⟩ := h
    rw [← pending, ← List.map_cons] at compiled
    obtain ⟨us, each, rfl⟩ := operands_rule compiled
    exact .logical each
  | choice condition yes no =>
    have h : Typing.choice (pendingArg schema (.plain condition)) (pendingArg schema (.plain yes))
      (pendingArg schema (.plain no)) scopes = .ok typed := h
    obtain ⟨_, _, _, ⟨⟩, ⟨⟩, ⟨⟩, rule⟩ := choice_rule h
    exact .choice rule
  | array pos items =>
    rw [Expr.compile, pendingItems_eq_map] at h
    exact array_rule h

end Typing

end LootFilter
