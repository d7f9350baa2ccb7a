import LootFilter.Proofs.Language.Compile

/-!
# Compiling related operands

Operations look at the types of their operands, and put their terms together. So what two lists of
operands are compiled to is related if the operands are, for any relation of terms that operations
keep: both are accepted, with one type, or both are rejected for one reason.
-/

namespace LootFilter

/-! ## Relations of terms -/

/-- Arguments of a helper with related terms. Criteria stand within as many lambdas as `heights`
says. -/
inductive HelperArg.Related (R : Term → Term → Prop) (heights : Nat → Nat → Prop) :
    HelperArg Term → HelperArg Term → Prop
  | value {t t' : Term} : R t t' → Related R heights (.value t) (.value t')
  | lambda {n n' : Nat} {t t' : Term} : heights n n' → R t t' →
      Related R heights (.lambda n t) (.lambda n' t')

/-- One operation on related operands. -/
inductive Term.OnRelated (R : Term → Term → Prop) (heights : Nat → Nat → Prop) : Term → Term → Prop
  | literal {l : Literal} : OnRelated R heights (.literal l) (.literal l)
  | field {t t' : Term} {place : Nat} : R t t' →
      OnRelated R heights (.field t place) (.field t' place)
  | toReal {t t' : Term} : R t t' → OnRelated R heights (.toReal t) (.toReal t')
  | not {t t' : Term} : R t t' → OnRelated R heights (.not t) (.not t')
  | negate {t t' : Term} {isReal : Bool} : R t t' →
      OnRelated R heights (.negate isReal t) (.negate isReal t')
  /-- The operands of a chain are related before the chains within them are merged with it. -/
  | logical {ts ts' : List Term} {op : LogicalOp} : List.Forall₂ R ts ts' →
      OnRelated R heights (.logical op (ts.flatMap (Typing.flatten op)))
        (.logical op (ts'.flatMap (Typing.flatten op)))
  | compare {l l' r r' : Term} {c : Comparison} {kind : Scalar} : R l l' → R r r' →
      OnRelated R heights (.compare c kind l r) (.compare c kind l' r')
  | compute {l l' r r' : Term} {a : Arithmetic} {isReal : Bool} : R l l' → R r r' →
      OnRelated R heights (.compute a isReal l r) (.compute a isReal l' r')
  | join {l l' r r' : Term} : R l l' → R r r' → OnRelated R heights (.join l r) (.join l' r')
  | choice {c c' y y' n n' : Term} : R c c' → R y y' → R n n' →
      OnRelated R heights (.choice c y n) (.choice c' y' n')
  | array {ts ts' : List Term} : List.Forall₂ R ts ts' →
      OnRelated R heights (.array ts) (.array ts')
  | index {t t' i i' : Term} : R t t' → R i i' → OnRelated R heights (.index t i) (.index t' i')
  | textLength {t t' : Term} : R t t' → OnRelated R heights (.textLength t) (.textLength t')
  | textTest {t t' w w' m m' : Term} {test : TextTest} : R t t' → R w w' → R m m' →
      OnRelated R heights (.textTest test t w m) (.textTest test t' w' m')
  | textMap {t t' : Term} {map : TextMap} : R t t' →
      OnRelated R heights (.textMap map t) (.textMap map t')
  | count {t t' : Term} : R t t' → OnRelated R heights (.count t) (.count t')
  | isNonempty {t t' : Term} : R t t' → OnRelated R heights (.isNonempty t) (.isNonempty t')
  | first {t t' : Term} : R t t' → OnRelated R heights (.first t) (.first t')
  | sum {t t' : Term} {isReal : Bool} : R t t' →
      OnRelated R heights (.sum isReal t) (.sum isReal t')
  | contains {t t' w w' : Term} : R t t' → R w w' →
      OnRelated R heights (.contains t w) (.contains t' w')
  | query {t t' body body' : Term} {q : Query} : R t t' → R body body' →
      OnRelated R heights (.query q t body) (.query q t' body')
  | modStats {t t' : Term} : R t t' → OnRelated R heights (.modStats t) (.modStats t')
  | stat {t t' key key' : Term} : R t t' → R key key' →
      OnRelated R heights (.stat t key) (.stat t' key')
  | statCount {t t' : Term} : R t t' → OnRelated R heights (.statCount t) (.statCount t')
  | hasStat {t t' key key' : Term} : R t t' → R key key' →
      OnRelated R heights (.hasStat t key) (.hasStat t' key')
  | helper {index : Nat} {args args' : List (HelperArg Term)} :
      List.Forall₂ (HelperArg.Related R heights) args args' →
      OnRelated R heights (.helper index args) (.helper index args')

namespace Typing

/-! ## Outcomes -/

/-- Whether both are accepted, with related results, or both are rejected for the same reason. -/
inductive Agree {α β : Type} (P : α → β → Prop) :
    Except CompileError α → Except CompileError β → Prop
  | ok {a : α} {b : β} : P a b → Agree P (.ok a) (.ok b)
  | error (e : CompileError) : Agree P (.error e) (.error e)

namespace Agree

variable {α β α' β' : Type} {P : α → β → Prop} {Q : α' → β' → Prop}
  {x : Except CompileError α} {y : Except CompileError β}

theorem bind {f : α → Except CompileError α'} {g : β → Except CompileError β'} (h : Agree P x y)
    (next : ∀ a b, P a b → Agree Q (f a) (g b)) : Agree Q (x >>= f) (y >>= g) := by
  cases h with
  | ok related => exact next _ _ related
  | error e => exact .error e

theorem map {f : α → α'} {g : β → β'} (h : Agree P x y) (next : ∀ a b, P a b → Q (f a) (g b)) :
    Agree Q (f <$> x) (g <$> y) := by
  cases h with
  | ok related => exact .ok (next _ _ related)
  | error e => exact .error e

theorem mapM {f : α → Except CompileError α'} {g : β → Except CompileError β'} {as : List α}
    {bs : List β} (each : List.Forall₂ (fun a b => Agree Q (f a) (g b)) as bs) :
    Agree (List.Forall₂ Q) (as.mapM f) (bs.mapM g) := by
  induction each with
  | nil => exact .ok .nil
  | cons first _ ih =>
    rw [List.mapM_cons, List.mapM_cons]
    exact first.bind fun _ _ h => ih.bind fun _ _ hs => .ok (.cons h hs)

theorem absent : Agree (Option.Rel P) (.ok none) (.ok none) := .ok .none

theorem found {a : α} {b : β} (h : P a b) : Agree (Option.Rel P) (.ok (some a)) (.ok (some b)) :=
  .ok (.some h)

theorem bindOption {x : Except CompileError (Option α)} {y : Except CompileError (Option β)}
    {f : Option α → Except CompileError α'} {g : Option β → Except CompileError β'}
    (h : Agree (Option.Rel P) x y) (absent : Agree Q (f none) (g none))
    (found : ∀ a b, P a b → Agree Q (f (some a)) (g (some b))) : Agree Q (x >>= f) (y >>= g) := by
  refine h.bind fun _ _ related => ?_
  cases related with
  | none => exact absent
  | some related => exact found _ _ related

end Agree

/-- Related terms of one type. -/
def RelatedAs (R : Term → Term → Prop) (typed typed' : Typed) : Prop :=
  R typed.1 typed'.1 ∧ typed.2 = typed'.2

section operations

variable {R : Term → Term → Prop} {heights : Nat → Nat → Prop}
  (keeps : ∀ t t', Term.OnRelated R heights t t' → R t t')
  {target target' l l' r r' : Typed} {pos : Nat}

include keeps

theorem member_agree (h : RelatedAs R target target') (name : String) :
    Agree (RelatedAs R) (member target name pos) (member target' name pos) := by
  obtain ⟨t, ty⟩ := target
  obtain ⟨t', _⟩ := target'
  obtain ⟨h, rfl⟩ : R t t' ∧ ty = _ := h
  unfold member reject
  dsimp only
  split
  · split
    · exact .ok ⟨keeps _ _ (.field h), rfl⟩
    · exact .error _
  · exact .ok ⟨keeps _ _ (.textLength h), rfl⟩
  any_goals exact .ok ⟨keeps _ _ (.count h), rfl⟩
  any_goals exact .ok ⟨keeps _ _ (.statCount h), rfl⟩
  exact .error _

theorem index_agree (h : RelatedAs R target target') (h' : RelatedAs R l l') :
    Agree (RelatedAs R) (index target l pos) (index target' l' pos) := by
  obtain ⟨t, ty⟩ := target
  obtain ⟨t', _⟩ := target'
  obtain ⟨i, indexTy⟩ := l
  obtain ⟨i', _⟩ := l'
  obtain ⟨h, rfl⟩ : R t t' ∧ ty = _ := h
  obtain ⟨h', rfl⟩ : R i i' ∧ indexTy = _ := h'
  unfold index reject
  dsimp only
  split
  any_goals exact .ok ⟨keeps _ _ (.index h h'), rfl⟩
  any_goals exact .ok ⟨keeps _ _ (.stat h h'), rfl⟩
  exact .error _

theorem unary_agree (op : UnaryOp) (h : RelatedAs R target target') :
    Agree (RelatedAs R) (unary op target pos) (unary op target' pos) := by
  obtain ⟨t, ty⟩ := target
  obtain ⟨t', _⟩ := target'
  obtain ⟨h, rfl⟩ : R t t' ∧ ty = _ := h
  unfold unary reject
  dsimp only
  split
  · exact .ok ⟨keeps _ _ (.not h), rfl⟩
  any_goals exact .ok ⟨keeps _ _ (.negate h), rfl⟩
  exact .error _

theorem binary_agree (op : BinaryOp) (h : RelatedAs R l l') (h' : RelatedAs R r r') :
    Agree (RelatedAs R) (binary op l r pos) (binary op l' r' pos) := by
  obtain ⟨t, lt⟩ := l
  obtain ⟨t', _⟩ := l'
  obtain ⟨u, rt⟩ := r
  obtain ⟨u', _⟩ := r'
  obtain ⟨h, rfl⟩ : R t t' ∧ lt = _ := h
  obtain ⟨h', rfl⟩ : R u u' ∧ rt = _ := h'
  unfold binary reject
  dsimp only
  split
  · split
    · exact .ok ⟨keeps _ _ (.compare h h'), rfl⟩
    · exact .error _
  · split
    · split
      · exact .ok ⟨keeps _ _ (.join h h'), rfl⟩
      · exact .error _
    · split
      · split <;> exact .ok ⟨keeps _ _ (.compute h h'), rfl⟩
      · exact .error _

theorem widen_related (h : RelatedAs R l l') (wide : Ty) : R (widen l wide) (widen l' wide) := by
  unfold widen
  rw [h.2]
  split
  · exact keeps _ _ (.toReal h.1)
  · exact h.1

end operations

/-! ## Pending expressions -/

/-- Whether two expressions that wait for their scopes are compiled to related terms, by themselves
within the scopes and as lambdas. -/
structure Pendings (R : Term → Term → Prop) (scopes scopes' : Scopes) (p p' : Pending) : Prop where
  pos : p.pos = p'.pos
  param : p.param.isSome = p'.param.isSome
  alone : p.param = none → Agree (RelatedAs R) (p.compile scopes) (p'.compile scopes')
  onElements : ∀ ty, Agree (RelatedAs R) (onElements p ty scopes) (onElements p' ty scopes')

section pendings

variable {R : Term → Term → Prop} {heights : Nat → Nat → Prop}
  (keeps : ∀ t t', Term.OnRelated R heights t t' → R t t')
  {scopes scopes' : Scopes} {p p' : Pending} {ps ps' : List Pending}

theorem alone_agree (h : Pendings R scopes scopes' p p') :
    Agree (RelatedAs R) (alone p scopes) (alone p' scopes') := by
  have param := h.param
  unfold alone reject
  rw [← h.pos]
  cases found : p.param <;> cases found' : p'.param <;> simp only [found, found'] at param
  case none.none => exact h.alone found
  case some.some => exact .error _
  all_goals cases param

theorem testing_agree (h : Pendings R scopes scopes' p p') (ty : Ty) :
    Agree R (testing p ty scopes) (testing p' ty scopes') := by
  unfold testing reject
  rw [← h.pos]
  refine (h.onElements ty).bind ?_
  rintro ⟨body, found⟩ ⟨body', _⟩ ⟨related, rfl⟩
  dsimp only
  split
  · exact .ok related
  · exact .error _

theorem operands_agree (op : LogicalOp) (each : List.Forall₂ (Pendings R scopes scopes') ps ps') :
    Agree (fun ts ts' => ∃ us us', List.Forall₂ R us us' ∧ ts = us.flatMap (flatten op) ∧
      ts' = us'.flatMap (flatten op)) (operands op scopes ps) (operands op scopes' ps') := by
  induction each with
  | nil => exact .ok ⟨[], [], .nil, rfl, rfl⟩
  | cons first _ ih =>
    rw [operands, operands, ← first.pos]
    refine (alone_agree first).bind ?_
    rintro ⟨t, ty⟩ ⟨t', _⟩ ⟨related, rfl⟩
    dsimp only
    split
    · exact .error _
    · refine ih.bind ?_
      rintro _ _ ⟨us, us', others, rfl, rfl⟩
      exact .ok ⟨t :: us, t' :: us', .cons related others, rfl, rfl⟩

include keeps

theorem choice_agree {c c' y y' n n' : Pending} (condition : Pendings R scopes scopes' c c')
    (yes : Pendings R scopes scopes' y y') (no : Pendings R scopes scopes' n n') :
    Agree (RelatedAs R) (choice c y n scopes) (choice c' y' n' scopes') := by
  unfold choice reject
  rw [← condition.pos, ← no.pos]
  refine (alone_agree condition).bind ?_
  rintro ⟨t, ty⟩ ⟨t', _⟩ ⟨related, rfl⟩
  dsimp only
  split
  · exact .error _
  · refine (alone_agree yes).bind fun typed typed' first => ?_
    refine (alone_agree no).bind fun other other' second => ?_
    rw [← first.2, ← second.2]
    split
    · exact .ok ⟨keeps _ _ (.choice related (widen_related keeps first _)
        (widen_related keeps second _)), rfl⟩
    · exact .error _

theorem iif_agree (pos : Nat) : List.Forall₂ (Pendings R scopes scopes') ps ps' →
    Agree (RelatedAs R)
      (match ps with
        | [condition, yes, no] => choice condition yes no scopes
        | _ => reject pos .wrongChoiceCount)
      (match ps' with
        | [condition, yes, no] => choice condition yes no scopes'
        | _ => reject pos .wrongChoiceCount) := by
  rintro (_ | ⟨condition, _ | ⟨yes, _ | ⟨no, _ | _⟩⟩⟩)
  case cons.cons.cons.nil => exact choice_agree keeps condition yes no
  all_goals exact .error _

theorem array_agree (each : List.Forall₂ (Pendings R scopes scopes') ps ps') (pos : Nat) :
    Agree (RelatedAs R) (array ps scopes pos) (array ps' scopes' pos) := by
  have places : ps.map Pending.pos = ps'.map Pending.pos := by
    induction each with
    | nil => rfl
    | cons first _ ih => rw [List.map_cons, List.map_cons, first.pos, ih]
  unfold array
  refine (Agree.mapM (each.imp fun _ _ => alone_agree)).bind fun typed typed' related => ?_
  have types : typed.map Prod.snd = typed'.map Prod.snd := by
    induction related with
    | nil => rfl
    | cons first _ ih => rw [List.map_cons, List.map_cons, first.2, ih]
  rw [places, types]
  split
  · exact .error _
  · rename_i first rest _
    cases commonType first rest with
    | error e => exact .error e
    | ok common =>
      dsimp only [bind, Except.bind]
      split
      · refine .ok ⟨keeps _ _ (.array ?_), rfl⟩
        exact List.forall₂_map_left_iff.2 (List.forall₂_map_right_iff.2
          (related.imp fun _ _ h => widen_related keeps h common))
      · exact .error _

end pendings

/-! ## Methods -/

section methods

variable {R : Term → Term → Prop} {heights : Nat → Nat → Prop}
  (keeps : ∀ t t', Term.OnRelated R heights t t' → R t t')
  {scopes scopes' : Scopes} {p p' : Pending} {ps ps' : List Pending} {t t' : Term}
  (related : R t t') {name : String}

theorem wantedText_agree (h : Pendings R scopes scopes' p p') (pos : Nat) :
    Agree R (wantedText name p scopes pos) (wantedText name p' scopes' pos) := by
  unfold wantedText reject
  refine (alone_agree h).bind ?_
  rintro ⟨w, ty⟩ ⟨w', _⟩ ⟨wanted, rfl⟩
  dsimp only
  split
  · exact .ok wanted
  · exact .error _

include keeps related

theorem textMethod_agree (each : List.Forall₂ (Pendings R scopes scopes') ps ps') (pos : Nat) :
    Agree (Option.Rel (RelatedAs R)) (textMethod t name ps scopes pos)
      (textMethod t' name ps' scopes' pos) := by
  have ordinal := keeps _ _ (.literal (l := .comparison .ordinal))
  unfold textMethod
  rcases each with _ | ⟨first, _ | ⟨second, _ | _⟩⟩
  · cases textTest? name <;> cases textMap? name
    any_goals exact .absent
    all_goals exact .found ⟨keeps _ _ (.textMap related), rfl⟩
  · cases textTest? name with
    | none => cases textMap? name <;> exact .absent
    | some test =>
      refine (wantedText_agree first pos).bind fun w w' wanted => ?_
      exact .found ⟨keeps _ _ (.textTest related wanted ordinal), rfl⟩
  · cases textTest? name with
    | none => cases textMap? name <;> exact .absent
    | some test =>
      refine (wantedText_agree first pos).bind fun w w' wanted => ?_
      refine (alone_agree second).bind ?_
      rintro ⟨m, ty⟩ ⟨m', _⟩ ⟨mode, rfl⟩
      unfold reject
      rw [second.pos]
      dsimp only
      split
      · exact .error _
      · exact .found ⟨keeps _ _ (.textTest related wanted mode), rfl⟩
  · cases textTest? name <;> cases textMap? name <;> exact .absent

theorem statMethod_agree (each : List.Forall₂ (Pendings R scopes scopes') ps ps') (pos : Nat) :
    Agree (Option.Rel (RelatedAs R)) (statMethod t name ps scopes pos)
      (statMethod t' name ps' scopes' pos) := by
  by_cases known : name = "ContainsKey"
  · subst known
    rcases each with _ | ⟨first, _ | _⟩
    · exact .absent
    · refine (alone_agree first).bind ?_
      rintro ⟨key, ty⟩ ⟨key', _⟩ ⟨found, rfl⟩
      unfold reject
      dsimp only
      split
      · exact .found ⟨keeps _ _ (.hasStat related found), rfl⟩
      · exact .error _
    · exact .absent
  · have unknown (u : Term) (qs : List Pending) (around : Scopes) :
        statMethod u name qs around pos = .ok none := by
      unfold statMethod
      split
      · exact (known rfl).elim
      · rfl
    rw [unknown, unknown]
    exact .absent

theorem withTest_agree (h : Pendings R scopes scopes' p p') (q : Query) (elem result : Ty) :
    Agree (Option.Rel (RelatedAs R))
      (do return some (Term.query q t (← testing p elem scopes), result))
      (do return some (Term.query q t' (← testing p' elem scopes'), result)) :=
  (testing_agree h elem).bind fun _ _ body => .found ⟨keeps _ _ (.query related body), rfl⟩

theorem bareMethod_agree (ty elem : Ty) (pos : Nat) :
    Agree (Option.Rel (RelatedAs R)) (sequenceMethod t ty elem name [] scopes pos)
      (sequenceMethod t' ty elem name [] scopes' pos) := by
  unfold sequenceMethod reject
  dsimp only
  split
  any_goals (rename_i shape; cases shape)
  · exact .found ⟨keeps _ _ (.count related), rfl⟩
  · exact .found ⟨keeps _ _ (.isNonempty related), rfl⟩
  · exact .found ⟨keeps _ _ (.first related), rfl⟩
  · split
    · exact .found ⟨keeps _ _ (.sum related), rfl⟩
    · exact .error _
  · split
    · exact .found ⟨keeps _ _ (.modStats related), rfl⟩
    · exact .absent
  · exact .absent

theorem lambdaMethod_agree (h : Pendings R scopes scopes' p p') (ty elem : Ty) (pos : Nat) :
    Agree (Option.Rel (RelatedAs R)) (sequenceMethod t ty elem name [p] scopes pos)
      (sequenceMethod t' ty elem name [p'] scopes' pos) := by
  by_cases known : name ∈ ["Count", "Any", "All", "Where", "First", "Select", "Sum", "Contains"]
  · simp only [List.mem_cons, List.not_mem_nil, or_false] at known
    rcases known with rfl | rfl | rfl | rfl | rfl | rfl | rfl | rfl
    iterate 5 exact withTest_agree keeps related h _ _ _
    iterate 2
      refine (h.onElements elem).bind ?_
      rintro ⟨body, mapped⟩ ⟨body', _⟩ ⟨bodies, rfl⟩
      unfold reject
      dsimp only
      split
      · exact .found ⟨keeps _ _ (.query related bodies), rfl⟩
      · exact .error _
    · refine (alone_agree h).bind ?_
      rintro ⟨w, wantedTy⟩ ⟨w', _⟩ ⟨wanted, rfl⟩
      unfold reject
      dsimp only
      split
      any_goals exact .error _
      exact .found ⟨keeps _ _ (.contains related wanted), rfl⟩
  · have unknown (u : Term) (p : Pending) (around : Scopes) :
        sequenceMethod u ty elem name [p] around pos = .ok none := by
      unfold sequenceMethod
      split <;> rename_i shape
      case h_14 => rfl
      any_goals cases shape
      all_goals exact (known (by decide)).elim
    rw [unknown, unknown]
    exact .absent

theorem sequenceMethod_agree (each : List.Forall₂ (Pendings R scopes scopes') ps ps') (ty elem : Ty)
    (pos : Nat) : Agree (Option.Rel (RelatedAs R)) (sequenceMethod t ty elem name ps scopes pos)
      (sequenceMethod t' ty elem name ps' scopes' pos) := by
  rcases each with _ | ⟨first, _ | _⟩
  · exact bareMethod_agree keeps related ty elem pos
  · exact lambdaMethod_agree keeps related first ty elem pos
  · have many (u : Term) (p q : Pending) (qs : List Pending) (around : Scopes) :
        sequenceMethod u ty elem name (p :: q :: qs) around pos = .ok none := by
      unfold sequenceMethod
      split
      any_goals rfl
      all_goals (rename_i shape; cases shape)
    rw [many, many]
    exact .absent

omit related in
theorem method_agree {target target' : Typed} (h : RelatedAs R target target') (name : String)
    (each : List.Forall₂ (Pendings R scopes scopes') ps ps') (pos : Nat) :
    Agree (RelatedAs R) (method target name ps scopes pos)
      (method target' name ps' scopes' pos) := by
  obtain ⟨t, ty⟩ := target
  obtain ⟨t', _⟩ := target'
  obtain ⟨h, rfl⟩ : R t t' ∧ ty = _ := h
  unfold method reject
  rw [← each.length_eq]
  dsimp only
  split
  · exact (textMethod_agree keeps h each pos).bindOption (.error _) fun _ _ => .ok
  · exact (statMethod_agree keeps h each pos).bindOption (.error _) fun _ _ => .ok
  · exact (statMethod_agree keeps h each pos).bindOption (.error _) fun _ _ => .ok
  · exact (sequenceMethod_agree keeps h each _ _ pos).bindOption (.error _) fun _ _ => .ok
  · exact .error _

end methods

/-! ## Calls of helpers -/

section calls

variable {R : Term → Term → Prop} {heights : Nat → Nat → Prop}
  (keeps : ∀ t t', Term.OnRelated R heights t t' → R t t')
  {scopes scopes' : Scopes} {ps ps' : List Pending} {typed typed' : List (Option Typed)}

/-- What the arguments of a helper are found to be, with their types, before the helper is known. -/
def FoundAlike (R : Term → Term → Prop) : List (Option Typed) → List (Option Typed) → Prop :=
  List.Forall₂ (Option.Rel (RelatedAs R))

theorem FoundAlike.types (h : FoundAlike R typed typed') :
    typed.map (·.map Prod.snd) = typed'.map (·.map Prod.snd) := by
  induction h with
  | nil => rfl
  | cons first _ ih =>
    rw [List.map_cons, List.map_cons, ih]
    cases first with
    | none => rfl
    | some related => rw [Option.map_some, Option.map_some, related.2]

theorem FoundAlike.terms (h : FoundAlike R typed typed') : List.Forall₂ R
    (typed.filterMap (·.map Prod.fst)) (typed'.filterMap (·.map Prod.fst)) := by
  induction h with
  | nil => exact .nil
  | cons first _ ih =>
    cases first with
    | none => exact ih
    | some related => exact .cons related.1 ih

theorem foundAlike_of_pendings (each : List.Forall₂ (Pendings R scopes scopes') ps ps') :
    Agree (FoundAlike R)
      (ps.mapM fun p => if p.param.isSome then pure none else some <$> p.compile scopes)
      (ps'.mapM fun p => if p.param.isSome then pure none else some <$> p.compile scopes') := by
  refine Agree.mapM (each.imp fun p p' h => ?_)
  rw [← h.param]
  split
  · exact .absent
  · rename_i plain
    have plain : p.param = none := by simpa using plain
    exact (h.alone plain).map fun _ _ related => .some related

theorem fixedArgs_agree (height : heights scopes.length scopes'.length)
    (each : List.Forall₂ (Pendings R scopes scopes') ps ps') (found : FoundAlike R typed typed')
    (params : List Ty) : Agree (List.Forall₂ (HelperArg.Related R heights))
      (fixedArgs scopes params (ps.zip typed)) (fixedArgs scopes' params (ps'.zip typed')) := by
  induction params generalizing ps ps' typed typed' with
  | nil => exact .ok .nil
  | cons param params ih =>
    rcases each with _ | ⟨first, each⟩
    · exact .ok .nil
    rcases found with _ | ⟨related, found⟩
    · exact .ok .nil
    have others := ih each found
    simp only [List.zip_cons_cons, fixedArgs, reject]
    rw [← first.pos]
    cases related with
    | some related => exact others.bind fun _ _ args => .ok (.cons (.value related.1) args)
    | none =>
      split
      · rename_i other
        cases other
      · refine (Agree.map (Q := HelperArg.Related R heights) (testing_agree first _)
          fun _ _ body => .lambda height body).bind fun _ _ passed => ?_
        exact others.bind fun _ _ args => .ok (.cons passed args)
      · exact .error _

include keeps

theorem helperCall_agree (schema : Schema) (height : heights scopes.length scopes'.length)
    (each : List.Forall₂ (Pendings R scopes scopes') ps ps') (name : String) (pos : Nat) :
    Agree (RelatedAs R) (helperCall schema name ps scopes pos)
      (helperCall schema name ps' scopes' pos) := by
  unfold helperCall reject
  split
  · exact .error _
  · refine (foundAlike_of_pendings each).bind fun typed typed' found => ?_
    rw [← found.types]
    dsimp only
    split
    · exact .error _
    · rename_i index helper tail _
      refine (fixedArgs_agree height each found helper.params).bind fun fixed fixed' args => ?_
      have further : FoundAlike R (typed.drop helper.params.length)
          (typed'.drop helper.params.length) := List.forall₂_drop _ found
      refine .ok ⟨keeps _ _ (.helper (List.rel_append args ?_)), rfl⟩
      cases tail with
      | absent => exact .nil
      | asList =>
        exact List.forall₂_map_left_iff.2 (List.forall₂_map_right_iff.2
          (further.terms.imp fun _ _ => .value))
      | asElements => exact .cons (.value (keeps _ _ (.array further.terms))) .nil

end calls

end Typing

/-! ## Expressions -/

/-- Whether a name stands somewhere in the expression to be looked up. -/
inductive Expr.Mentions (name : String) : Expr → Prop
  | name {pos : Nat} : Mentions name (.name pos name)
  | part {e part : Expr} : part ∈ e.parts → Mentions name part → Mentions name e

theorem Expr.mentions_iff {name : String} {e : Expr} :
    e.Mentions name ↔ e.name? = some name ∨ ∃ part ∈ e.parts, part.Mentions name := by
  constructor
  · intro mentioned
    cases mentioned with
    | name => exact .inl rfl
    | part mem within => exact .inr ⟨_, mem, within⟩
  · rintro (named | ⟨part, mem, within⟩)
    · cases e with
      | name pos other =>
        cases named
        exact .name
      | _ => cases named
    · exact .part mem within

/-- The same construct, with related names and parts. Parts that are no arguments are taken as plain
ones. -/
inductive Expr.Alike (N : String → String → Prop) (P : Arg Expr → Arg Expr → Prop) :
    Expr → Expr → Prop
  | bool {pos : Nat} {b : Bool} : Alike N P (.bool pos b) (.bool pos b)
  | int {pos : Nat} {n : Int} : Alike N P (.int pos n) (.int pos n)
  | real {pos : Nat} {x : Float} : Alike N P (.real pos x) (.real pos x)
  | text {pos : Nat} {s : String} : Alike N P (.text pos s) (.text pos s)
  | name {pos : Nat} {s s' : String} : N s s' → Alike N P (.name pos s) (.name pos s')
  | member {target target' : Expr} {field : String} : P (.plain target) (.plain target') →
      Alike N P (.member target field) (.member target' field)
  | call {pos : Nat} {name : String} {args args' : List (Arg Expr)} : List.Forall₂ P args args' →
      Alike N P (.call pos name args) (.call pos name args')
  | method {target target' : Expr} {name : String} {args args' : List (Arg Expr)} :
      P (.plain target) (.plain target') → List.Forall₂ P args args' →
      Alike N P (.method target name args) (.method target' name args')
  | index {target target' i i' : Expr} : P (.plain target) (.plain target') →
      P (.plain i) (.plain i') → Alike N P (.index target i) (.index target' i')
  | unary {pos : Nat} {op : UnaryOp} {e e' : Expr} : P (.plain e) (.plain e') →
      Alike N P (.unary pos op e) (.unary pos op e')
  | binary {op : BinaryOp} {l l' r r' : Expr} : P (.plain l) (.plain l') →
      P (.plain r) (.plain r') → Alike N P (.binary op l r) (.binary op l' r')
  | logical {op : LogicalOp} {first first' : Expr} {rest rest' : List Expr} :
      P (.plain first) (.plain first') →
      List.Forall₂ (fun e e' => P (.plain e) (.plain e')) rest rest' →
      Alike N P (.logical op first rest) (.logical op first' rest')
  | choice {c c' y y' n n' : Expr} : P (.plain c) (.plain c') → P (.plain y) (.plain y') →
      P (.plain n) (.plain n') → Alike N P (.choice c y n) (.choice c' y' n')
  | array {pos : Nat} {items items' : List Expr} :
      List.Forall₂ (fun e e' => P (.plain e) (.plain e')) items items' →
      Alike N P (.array pos items) (.array pos items')

theorem Expr.Alike.refl {N : String → String → Prop} {P : Arg Expr → Arg Expr → Prop} {e : Expr}
    (names : ∀ s, e.name? = some s → N s s) (parts : ∀ arg, arg.body ∈ e.parts → P arg arg) :
    e.Alike N P e := by
  have args (args : List (Arg Expr)) (mem : ∀ part ∈ args.map Arg.body, part ∈ e.parts) :
      List.Forall₂ P args args :=
    List.forall₂_same.2 fun arg within => parts arg (mem _ (List.mem_map_of_mem within))
  have items (items : List Expr) (mem : ∀ part ∈ items, part ∈ e.parts) :
      List.Forall₂ (fun e e' => P (.plain e) (.plain e')) items items :=
    List.forall₂_same.2 fun part within => parts (.plain part) (mem part within)
  cases e with
  | bool => exact .bool
  | int => exact .int
  | real => exact .real
  | text => exact .text
  | name pos s => exact .name (names s rfl)
  | member target field => exact .member (parts (.plain _) (.head _))
  | call pos name as => exact .call (args as fun _ => id)
  | method target name as =>
    exact .method (parts (.plain _) (.head _)) (args as fun _ => .tail _)
  | index target i =>
    exact .index (parts (.plain _) (.head _)) (parts (.plain _) (.tail _ (.head _)))
  | unary pos op operand => exact .unary (parts (.plain _) (.head _))
  | binary op l r =>
    exact .binary (parts (.plain _) (.head _)) (parts (.plain _) (.tail _ (.head _)))
  | logical op first rest =>
    exact .logical (parts (.plain _) (.head _)) (items rest fun _ => .tail _)
  | choice c y n =>
    exact .choice (parts (.plain _) (.head _)) (parts (.plain _) (.tail _ (.head _)))
      (parts (.plain _) (.tail _ (.tail _ (.head _))))
  | array pos es => exact .array (items es fun _ => id)

namespace Typing

/-- Whether two names stand for related terms, each within its own scopes. -/
structure NamesMatch (schema : Schema) (R : Term → Term → Prop) (scopes scopes' : Scopes)
    (name name' : String) : Prop where
  identifier : ∀ pos,
    Agree (RelatedAs R) (identifier scopes name pos) (identifier scopes' name' pos)
  constant? : ∀ member pos, Agree (Option.Rel (RelatedAs R))
    (constant? schema scopes name member pos) (constant? schema scopes' name' member pos)

/-- Whether some names stand for related terms within two lists of scopes. -/
structure NamesAgree (schema : Schema) (R : Term → Term → Prop) (heights : Nat → Nat → Prop)
    (names : String → Prop) (scopes scopes' : Scopes) : Prop where
  height : heights scopes.length scopes'.length
  name : ∀ name, names name → NamesMatch schema R scopes scopes' name name

section expressions

variable {schema : Schema} {R : Term → Term → Prop} {heights : Nat → Nat → Prop}
  (keeps : ∀ t t', Term.OnRelated R heights t t' → R t t') {names : String → Prop}
  {scopes scopes' : Scopes}

/-- Whether the expression is compiled to related terms wherever the names agree, also within more
lambdas. -/
def CompilesAlike (schema : Schema) (R : Term → Term → Prop) (heights : Nat → Nat → Prop)
    (names : String → Prop) (e : Expr) : Prop :=
  ∀ scopes scopes', (∀ inner, NamesAgree schema R heights names (inner ++ scopes)
    (inner ++ scopes')) → Agree (RelatedAs R) (e.compile schema scopes) (e.compile schema scopes')

theorem pendings_of_alike {arg : Arg Expr} (ih : CompilesAlike schema R heights names arg.body)
    (agree : ∀ inner, NamesAgree schema R heights names (inner ++ scopes) (inner ++ scopes')) :
    Pendings R scopes scopes' (pendingArg schema arg) (pendingArg schema arg) where
  pos := rfl
  param := rfl
  alone plain := by
    cases arg with
    | plain e => exact ih _ _ agree
    | lambda pos param body => cases plain
  onElements ty := by
    rw [onElements_eq, onElements_eq]
    refine ih _ _ fun inner => ?_
    have more := agree (inner ++ [arg.scope ty])
    rwa [List.append_assoc, List.append_assoc] at more

include keeps

/-- The same construct with parts that are compiled to related terms is compiled to related terms. -/
theorem compile_agree {N : String → String → Prop} {P : Arg Expr → Arg Expr → Prop} {e e' : Expr}
    (alike : e.Alike N P e') (height : heights scopes.length scopes'.length)
    (names : ∀ s s', N s s' → NamesMatch schema R scopes scopes' s s')
    (spaces : ∀ target target', P (.plain target) (.plain target') →
      Option.Rel N target.name? target'.name?)
    (parts : ∀ arg arg', P arg arg' →
      Pendings R scopes scopes' (pendingArg schema arg) (pendingArg schema arg')) :
    Agree (RelatedAs R) (e.compile schema scopes) (e'.compile schema scopes') := by
  have compiled {part part' : Expr} (h : P (.plain part) (.plain part')) : Agree (RelatedAs R)
      (part.compile schema scopes) (part'.compile schema scopes') := (parts _ _ h).alone rfl
  have place {part part' : Expr} (h : P (.plain part) (.plain part')) : part.pos = part'.pos :=
    (parts _ _ h).pos
  have waiting {args args' : List (Arg Expr)} (each : List.Forall₂ P args args') : List.Forall₂
      (Pendings R scopes scopes') (args.map (pendingArg schema)) (args'.map (pendingArg schema)) :=
    List.forall₂_map_left_iff.2 (List.forall₂_map_right_iff.2 (each.imp parts))
  have waitingItems {items items' : List Expr}
      (each : List.Forall₂ (fun e e' => P (.plain e) (.plain e')) items items') : List.Forall₂
      (Pendings R scopes scopes') (items.map (pending schema)) (items'.map (pending schema)) :=
    List.forall₂_map_left_iff.2 (List.forall₂_map_right_iff.2
      (each.imp fun _ _ => parts (.plain _) (.plain _)))
  cases alike with
  | bool | int | real | text => exact .ok ⟨keeps _ _ .literal, rfl⟩
  | name h =>
    rw [Expr.compile, Expr.compile]
    exact (names _ _ h).identifier _
  | @member target target' name h =>
    rw [Expr.compile, Expr.compile, ← place h]
    have field : Agree (RelatedAs R) (target.compile schema scopes >>= (member · name target.pos))
        (target'.compile schema scopes' >>= (member · name target.pos)) :=
      (compiled h).bind fun _ _ h => member_agree keeps h name
    have spaces := spaces _ _ h
    revert spaces
    generalize target.name? = space
    generalize target'.name? = space'
    rintro (known | _)
    · exact ((names _ _ known).constant? name _).bindOption field fun _ _ => .ok
    · exact field
  | call args =>
    rw [Expr.compile, Expr.compile, pendingArgs_eq_map, pendingArgs_eq_map]
    split
    · exact iif_agree keeps _ (waiting args)
    · exact helperCall_agree keeps schema height (waiting args) _ _
  | method h args =>
    rw [Expr.compile, Expr.compile, pendingArgs_eq_map, pendingArgs_eq_map, ← place h]
    exact (compiled h).bind fun _ _ h => method_agree keeps h _ (waiting args) _
  | index h h' =>
    rw [Expr.compile, Expr.compile, ← place h]
    exact (compiled h).bind fun _ _ h => (compiled h').bind fun _ _ h' => index_agree keeps h h'
  | unary h =>
    rw [Expr.compile, Expr.compile]
    exact (compiled h).bind fun _ _ h => unary_agree keeps _ h
  | binary h h' =>
    rw [Expr.compile, Expr.compile, ← place h]
    exact (compiled h).bind fun _ _ h => (compiled h').bind fun _ _ h' => binary_agree keeps _ h h'
  | logical h rest =>
    rw [Expr.compile, Expr.compile, pendingItems_eq_map, pendingItems_eq_map]
    refine (operands_agree _ (.cons (parts _ _ h) (waitingItems rest))).bind ?_
    rintro _ _ ⟨us, us', each, rfl, rfl⟩
    exact .ok ⟨keeps _ _ (.logical each), rfl⟩
  | choice c y n =>
    rw [Expr.compile, Expr.compile]
    exact choice_agree keeps (parts _ _ c) (parts _ _ y) (parts _ _ n)
  | array items =>
    rw [Expr.compile, Expr.compile, pendingItems_eq_map, pendingItems_eq_map]
    exact array_agree keeps (waitingItems items) _

theorem compilesAlike {e : Expr} (mentioned : ∀ name, e.Mentions name → names name) :
    CompilesAlike schema R heights names e := by
  induction e using Expr.induction with
  | step e ih =>
  intro scopes scopes' agree
  have here := agree []
  rw [List.nil_append, List.nil_append] at here
  let N (s s' : String) : Prop := names s ∧ s = s'
  let P (arg arg' : Arg Expr) : Prop := arg.body ∈ e.parts ∧ arg = arg'
  have alike : e.Alike N P e := by
    refine .refl (fun s named => ⟨mentioned s (Expr.mentions_iff.2 (.inl named)), rfl⟩) ?_
    exact fun arg mem => ⟨mem, rfl⟩
  refine compile_agree keeps alike here.height ?_ ?_ ?_
  · rintro s _ ⟨known, rfl⟩
    exact here.name s known
  · rintro target _ ⟨mem, ⟨⟩⟩
    cases target with
    | name pos space => exact .some ⟨mentioned _ (.part mem .name), rfl⟩
    | _ => exact .none
  · rintro arg _ ⟨mem, rfl⟩
    exact pendings_of_alike (ih _ mem fun name within => mentioned name (.part mem within)) agree

end expressions

end Typing

end LootFilter
