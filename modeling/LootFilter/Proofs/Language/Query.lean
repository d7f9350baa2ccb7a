import LootFilter.Proofs.Language.Accepted
import LootFilter.Proofs.Language.Names

/-!
# Queries as scans

A query tries its lambda on the elements of a sequence from the front, each time in the session that
the former trial left. What it comes to is read off the trials: the first that ends the scan
decides, and nothing behind it is tried.
-/

namespace LootFilter

open Eval (keep firstThat pureOf)
open Conduct (run_bind)

/-- What a test makes of an element, with the session after it. -/
structure Trial (α : Type) where
  element : α
  outcome : Except Fault Bool
  session : Session

namespace Trial

variable {α β γ : Type}

def gave (b : Bool) (trial : Trial α) : Bool :=
  match trial.outcome with
  | .ok answer => answer == b
  | .error _ => false

def map (g : α → β) (trial : Trial α) : Trial β := { trial with element := g trial.element }

def fails (trial : Trial α) : Bool := !trial.outcome.isOk

/-- The trials of all elements, if nothing ended the scan. -/
def each (test : α → EvalM Bool) : List α → Session → List (Trial α)
  | [], _ => []
  | a :: as, s =>
    let run := (test a).run.run s
    ⟨a, run.1, run.2⟩ :: each test as run.2

def last : List (Trial α) → Session → Session
  | [], s => s
  | trial :: trials, _ => last trials trial.session

def accepted (trials : List (Trial α)) : List α := (trials.filter (gave true)).map element

/-- What a scan comes to that ends at the first trial of a kind. -/
def scan (ends : Trial α → Bool) (found : Trial α → Except Fault β) (otherwise : Except Fault β)
    (trials : List (Trial α)) (s : Session) : Except Fault β × Session :=
  match trials.find? ends with
  | some trial => (found trial, trial.session)
  | none => (otherwise, last trials s)

/-- What a scan comes to that only a fault ends. -/
def through (b : β) (trials : List (Trial α)) (s : Session) : Except Fault β × Session :=
  scan fails (fun trial => (fun _ => b) <$> trial.outcome) (.ok b) trials s

variable {ends : Trial α → Bool} {found : Trial α → Except Fault β} {otherwise : Except Fault β}
  {trial : Trial α} {trials : List (Trial α)} {s : Session}

theorem scan_cons : scan ends found otherwise (trial :: trials) s =
    if ends trial then (found trial, trial.session)
    else scan ends found otherwise trials trial.session := by
  rw [scan, List.find?_cons]
  cases ends trial <;> rfl

theorem map_scan (f : β → γ) : Prod.map (f <$> ·) id (scan ends found otherwise trials s) =
    scan ends (fun trial => f <$> found trial) (f <$> otherwise) trials s := by
  unfold scan
  split <;> rfl

theorem map_through (f : β → γ) (b : β) :
    Prod.map (f <$> ·) id (through b trials s) = through (f b) trials s := by
  rw [through, map_scan, through]
  simp only [Functor.map_map]
  rfl

theorem scan_empty {trials : List (Trial Value)} (s : Session) :
    (scan (!·.gave false) (fun trial => (fun _ => trial.element) <$> trial.outcome)
      (.error .emptySequence) trials s).1 = .error .emptySequence ↔
      (∀ trial ∈ trials, trial.gave false) ∨
        ∃ trial, trials.find? (!·.gave false) = some trial ∧
          trial.outcome = .error .emptySequence := by
  unfold scan
  cases search : trials.find? (!·.gave false) with
  | none => simpa using List.find?_eq_none.1 search
  | some trial =>
    have ended := List.find?_some (p := (!Trial.gave false ·)) search
    have others : ¬ ∀ trial ∈ trials, trial.gave false := fun all => by
      rw [all trial (List.mem_of_find?_eq_some search)] at ended
      cases ended
    simp only [others, false_or, Option.some.injEq, exists_eq_left']
    rcases trial.outcome with fault | b
    · change Except.error fault = .error .emptySequence ↔ _
      simp only [Except.error.injEq]
    · exact ⟨nofun, nofun⟩

/-! ## Runs -/

section runs

variable {test : α → EvalM Bool} {as : List α}

theorem run_map (f : β → γ) (e : EvalM β) (s : Session) :
    (f <$> e).run.run s = Prod.map (f <$> ·) id (e.run.run s) := by
  rw [map_eq_pure_bind, run_bind]
  rcases e.run.run s with ⟨answer, after⟩
  cases answer <;> rfl

theorem anyM_run (s : Session) : (as.anyM test).run.run s =
    scan (!·.gave false) outcome (.ok false) (each test as s) s := by
  induction as generalizing s with
  | nil => rfl
  | cons a as ih =>
    rw [List.anyM, run_bind, each, scan_cons]
    rcases (test a).run.run s with ⟨answer, after⟩
    cases answer with
    | error fault => rfl
    | ok b =>
      cases b with
      | true => rfl
      | false => exact ih after

theorem allM_run (s : Session) : (as.allM test).run.run s =
    scan (!·.gave true) outcome (.ok true) (each test as s) s := by
  induction as generalizing s with
  | nil => rfl
  | cons a as ih =>
    rw [List.allM, run_bind, each, scan_cons]
    rcases (test a).run.run s with ⟨answer, after⟩
    cases answer with
    | error fault => rfl
    | ok b =>
      cases b with
      | true => exact ih after
      | false => rfl

theorem firstThat_run (s : Session) : (firstThat test as).run.run s =
    scan (!·.gave false) (fun trial => (fun _ => trial.element) <$> trial.outcome)
      (.error .emptySequence) (each test as s) s := by
  induction as generalizing s with
  | nil => rfl
  | cons a as ih =>
    rw [firstThat, run_bind, each, scan_cons]
    rcases (test a).run.run s with ⟨answer, after⟩
    cases answer with
    | error fault => rfl
    | ok b =>
      cases b with
      | true => rfl
      | false => exact ih after

theorem keep_run (s : Session) : (keep test as).run.run s =
    through (accepted (each test as s)) (each test as s) s := by
  induction as generalizing s with
  | nil => rfl
  | cons a as ih =>
    rw [keep, run_bind, each]
    unfold through
    rw [scan_cons]
    rcases (test a).run.run s with ⟨answer, after⟩
    cases answer with
    | error fault => rfl
    | ok b =>
      cases b with
      | true =>
        change ((a :: ·) <$> keep test as).run.run after = _
        rw [run_map, ih after, map_through]
        rfl
      | false => exact ih after

theorem each_map (g : β → α) (bs : List β) (s : Session) :
    each test (bs.map g) s = (each (fun b => test (g b)) bs s).map (map g) := by
  induction bs generalizing s with
  | nil => rfl
  | cons b bs ih => rw [List.map_cons, each, ih, each, List.map_cons, map]

theorem accepted_map (g : α → β) (trials : List (Trial α)) :
    accepted (trials.map (map g)) = (accepted trials).map g := by
  rw [accepted, List.filter_map, List.map_map, accepted, List.map_map]
  rfl

theorem through_map (g : α → β) (c : γ) (trials : List (Trial α)) (s : Session) :
    through c (trials.map (map g)) s = through c trials s := by
  induction trials generalizing s with
  | nil => rfl
  | cons trial trials ih =>
    unfold through at ih ⊢
    rw [List.map_cons, scan_cons, scan_cons, ih]
    rfl

theorem last_map (g : α → β) (trials : List (Trial α)) (s : Session) :
    last (trials.map (map g)) s = last trials s := by
  induction trials generalizing s with
  | nil => rfl
  | cons trial trials ih => exact ih trial.session

theorem keep_map (g : α → β) (test : β → EvalM Bool) (as : List α) :
    keep test (as.map g) = List.map g <$> keep (fun a => test (g a)) as := by
  funext s
  change (keep test (as.map g)).run.run s = (List.map g <$> keep (fun a => test (g a)) as).run.run s
  rw [keep_run, each_map, through_map, accepted_map, run_map, keep_run, map_through]

end runs

end Trial

open Trial (scan through accepted)

/-! ## Queries of values -/

namespace Eval

variable {α β γ : Type} {f : Value → EvalM Value} {target : Value} {vs : List Value}

def records (mods : List PlacedModifier) : List Value :=
  mods.map fun placed => .record (.modifier placed)

/-- What is kept of a collection of modifiers is one again, and of any other sequence a list. -/
theorem filter_run (sequence : target.elements = .ok vs) (s : Session) :
    let trials := Trial.each (test f) vs s
    ∃ kept : Value, kept.kind = target.kind ∧ kept.elements = .ok (accepted trials) ∧
      (query .filter f target).run.run s = through kept trials s := by
  intro trials
  cases target with
  | list ws =>
    cases sequence
    refine ⟨.list (accepted trials), rfl, rfl, ?_⟩
    change (Value.list <$> keep (test f) vs).run.run s = _
    rw [Trial.run_map, Trial.keep_run, Trial.map_through]
  | mods mods =>
    obtain rfl : records mods.toList = vs := Except.ok.inj sequence
    let placed := Trial.each (fun placed => test f (.record (.modifier placed))) mods.toList s
    have same : trials = placed.map (Trial.map fun placed => .record (.modifier placed)) :=
      Trial.each_map ..
    refine ⟨.mods (.picked (accepted placed)), rfl, ?_, ?_⟩
    · rw [same, Trial.accepted_map]
      rfl
    · rw [same, Trial.through_map]
      change ((fun kept => Value.mods (.picked kept)) <$>
        keep (fun placed => test f (.record (.modifier placed))) mods.toList : EvalM Value).run.run
          s = _
      rw [Trial.run_map, Trial.keep_run, Trial.map_through]
  | _ => cases sequence

theorem query_of_elements {q : Query} (other : q ≠ .filter) (sequence : target.elements = .ok vs) :
    query q f target = queryElements q f vs := by
  unfold query
  split
  · cases other rfl
  · rw [sequence]
    rfl

/-! ## Laws -/

/-- The numbers in the values of a lambda can be added up while it is applied or afterwards, if
every value has a number. -/
theorem foldlM_mapM {N : Type} {C : Conduct} {f : α → EvalM β} {as : List α}
    {read : β → Except Fault N} (add : γ → N → γ)
    (reads : ∀ a ∈ as, C.Admits (f a) fun b => ∃ n, read b = .ok n) (sum : γ) :
    as.foldlM (fun sum a => do return add sum (← pureOf (read (← f a)))) sum =
      as.mapM f >>= fun bs =>
        bs.foldlM (fun sum b => do return add sum (← pureOf (read b))) sum := by
  induction as generalizing sum with
  | nil => rfl
  | cons a as ih =>
    obtain ⟨first, others⟩ := List.forall_mem_cons.1 reads
    simp only [List.foldlM_cons, List.mapM_cons, bind_assoc, pure_bind]
    refine first.bind_congr fun b h => ?_
    obtain ⟨n, h⟩ := h
    have number : (pureOf (read b) : EvalM N) = pure n := by rw [h, pureOf]
    rw [number, pure_bind, ih others]
    simp only [pure_bind]

theorem test_not (f : Value → EvalM Value) :
    test (fun w => do return .bool (!(← pureOf (← f w).asBool))) = fun w => (!·) <$> test f w := by
  funext w
  simp only [test, Value.asBool, map_eq_pure_bind, bind_assoc, pure_bind]
  rfl

theorem query_all (f : Value → EvalM Value) (v : Value) : query .all f v = do
    let found ← query .any (fun w => do return .bool (!(← pureOf (← f w).asBool))) v
    return .bool (!(← pureOf found.asBool)) := by
  simp only [query, queryElements, List.allM_eq_not_anyM_not, test_not, bind_assoc, bind_map_left,
    pure_bind]
  rfl

theorem query_count (f : Value → EvalM Value) (v : Value) : query .count f v = do
    let kept ← query .filter f v
    return .int (.ofNat (← pureOf kept.elements).length) := by
  cases v with
  | mods mods =>
    simp only [query, queryElements, Value.elements, pureOf, pure_bind, bind_assoc, Trial.keep_map,
      bind_map_left, List.length_map, Mods.toList]
  | list vs => simp only [query, queryElements, Value.elements, pureOf, pure_bind, bind_assoc]
  | _ => rfl

theorem query_map_pure (v : Value) :
    query .map pure v = (do return .list (← pureOf v.elements) : EvalM Value) := by
  have same (vs : List Value) : vs.mapM pure = (pure vs : EvalM (List Value)) := by
    simpa using List.mapM_pure (m := EvalM) (f := id) (l := vs)
  simp only [query, queryElements, same, pure_bind]

theorem query_filter_map (f : Value → EvalM Value) (v : Value) :
    (query .map pure v >>= fun listed => query .filter f listed) =
      query .filter f v >>= fun kept => query .map pure kept := by
  simp only [query_map_pure, bind_assoc, pure_bind]
  cases v with
  | mods mods =>
    simp only [query, queryElements, Value.elements, pureOf, pure_bind, bind_assoc, Trial.keep_map,
      bind_map_left, Mods.toList]
  | list vs => simp only [query, queryElements, Value.elements, pureOf, pure_bind, bind_assoc]
  | _ => rfl

theorem sumOf_mapM {C : Conduct} {ty : Ty} (numeric : ty.isNumeric)
    (typed : ∀ v ∈ vs, C.Admits (f v) fun number => number.HasTy C.root ty) :
    sumOf (ty = .real) f vs = vs.mapM f >>= fun numbers => sumOf (ty = .real) pure numbers := by
  unfold Ty.isNumeric at numeric
  split at numeric
  · have whole : ∀ v ∈ vs, C.Admits (f v) fun number => ∃ n, number.asInt = .ok n := by
      refine fun v mem => (typed v mem).weaken ?_
      rintro _ ⟨⟩
      exact ⟨_, rfl⟩
    have added := foldlM_mapM (fun sum n => sum + n) whole 0
    change sumOf false f vs = vs.mapM f >>= fun numbers => sumOf false pure numbers
    simp only [sumOf, pure_bind, Bool.false_eq_true, if_false, added, map_bind]
  · have real : ∀ v ∈ vs, C.Admits (f v) fun number => ∃ x, number.asReal = .ok x := by
      refine fun v mem => (typed v mem).weaken ?_
      rintro _ ⟨⟩
      exact ⟨_, rfl⟩
    have added := foldlM_mapM (fun sum x => sum + x) real 0.0
    simp only [sumOf, pure_bind, decide_true, if_true, added, map_bind]
  · cases numeric

theorem query_sum {root : Item} {v : Value} {ty elem mapped : Ty}
    (sequence : ty.element? = some elem) (h : v.HasTy root ty) (numeric : mapped.isNumeric)
    (typed : ∀ v, v.HasTy root elem → (Conduct.free root).Admits (f v) fun number =>
      number.HasTy root mapped) :
    query (.sum (mapped = .real)) f v = (do
      let values ← query .map f v
      let vs ← pureOf values.elements
      sumOf (mapped = .real) pure vs) := by
  have elements := Conduct.answers_elements (C := .free root) sequence h
  simp only [query]
  cases found : v.elements with
  | error fault => rfl
  | ok vs =>
    rw [found] at elements
    have added := sumOf_mapM numeric fun w mem => typed w (elements w mem)
    simp only [queryElements, pureOf, pure_bind, bind_assoc, Value.elements, added]

end Eval

/-! ## Queries of terms -/

namespace Term

/-- What the term comes to on the stack, with the session after it. The stack is as it was. -/
def ComesTo (it : Item) (locals : Locals) (s : Session) (t : Term)
    (run : Except Fault Value × Session) : Prop :=
  Machine.outcome (t.run Helper.standard it) locals s = ((run.1, locals), run.2)

/-- The trials of a lambda with the body, each with its element on top of the stack. -/
def trials (it : Item) (locals : Locals) (body : Term) (vs : List Value) (s : Session) :
    List (Trial Value) :=
  Trial.each (Eval.test fun v => (body.run Helper.standard it).within (locals.push v)) vs s

variable {it : Item} {locals : Locals} {s mid : Session} {t body : Term} {v : Value}
  {vs : List Value} {run : Except Fault Value × Session}

theorem comesTo_iff : t.ComesTo it locals s run ↔
    (t.eval Helper.standard it locals).run.run s = run := by
  rw [ComesTo, run_actsAs, Prod.ext_iff, Prod.ext_iff, Prod.ext_iff]
  simp only [and_true]

theorem ComesTo.unique {run' : Except Fault Value × Session} (h : t.ComesTo it locals s run)
    (h' : t.ComesTo it locals s run') : run = run' :=
  (comesTo_iff.1 h).symm.trans (comesTo_iff.1 h')

theorem comesTo_query {q : Query} (source : t.ComesTo it locals s (.ok v, mid)) :
    (query q t body).ComesTo it locals s
      ((Eval.query q (fun v => body.eval Helper.standard it (locals.push v)) v).run.run mid) := by
  rw [comesTo_iff] at source ⊢
  rw [eval, run_bind, source]

theorem trials_eq : body.trials it locals vs s =
    Trial.each (Eval.test fun v => body.eval Helper.standard it (locals.push v)) vs s := by
  simp only [trials, run_within]

end Term

/-- What the queries with a test come to, in terms of the trials of the elements. -/
structure Query.Scans (it : Item) (locals : Locals) (s : Session) (t body : Term) (v : Value)
    (trials : List (Trial Value)) (mid : Session) : Prop where
  any : (Term.query .any t body).ComesTo it locals s
    (scan (!·.gave false) (fun trial => .bool <$> trial.outcome) (.ok (.bool false)) trials mid)
  all : (Term.query .all t body).ComesTo it locals s
    (scan (!·.gave true) (fun trial => .bool <$> trial.outcome) (.ok (.bool true)) trials mid)
  first : (Term.query .first t body).ComesTo it locals s
    (scan (!·.gave false) (fun trial => (fun _ => trial.element) <$> trial.outcome)
      (.error .emptySequence) trials mid)
  /-- A test can fail in the same way. -/
  empty : (∃ after, (Term.query .first t body).ComesTo it locals s (.error .emptySequence, after)) ↔
    (∀ trial ∈ trials, trial.gave false) ∨
      ∃ trial, trials.find? (!·.gave false) = some trial ∧ trial.outcome = .error .emptySequence
  count : (Term.query .count t body).ComesTo it locals s
    (through (.int (.ofNat (accepted trials).length)) trials mid)
  filter : ∃ kept : Value, kept.kind = v.kind ∧ kept.elements = .ok (accepted trials) ∧
    (Term.query .filter t body).ComesTo it locals s (through kept trials mid)

theorem Query.scans {it : Item} {locals : Locals} {s mid : Session} {t body : Term} {v : Value}
    {vs : List Value} (source : t.ComesTo it locals s (.ok v, mid))
    (sequence : v.elements = .ok vs) :
    Query.Scans it locals s t body v (body.trials it locals vs mid) mid := by
  rw [Term.trials_eq]
  generalize run : (fun v => body.eval Helper.standard it (locals.push v)) = f
  have queried (q : Query) : (Term.query q t body).ComesTo it locals s
      ((Eval.query q f v).run.run mid) := run ▸ Term.comesTo_query source
  have elements {q : Query} (other : q ≠ .filter) : (Term.query q t body).ComesTo it locals s
      ((Eval.queryElements q f vs).run.run mid) :=
    Eval.query_of_elements other sequence ▸ queried q
  have first : (Term.query .first t body).ComesTo it locals s _ := elements (by decide)
  rw [Eval.queryElements, Trial.firstThat_run] at first
  refine ⟨?_, ?_, first, ?_, ?_, ?_⟩
  · have any := elements (q := .any) (by decide)
    change Term.ComesTo it locals s _ ((Value.bool <$> vs.anyM (Eval.test f)).run.run mid) at any
    rwa [Trial.run_map, Trial.anyM_run, Trial.map_scan] at any
  · have all := elements (q := .all) (by decide)
    change Term.ComesTo it locals s _ ((Value.bool <$> vs.allM (Eval.test f)).run.run mid) at all
    rwa [Trial.run_map, Trial.allM_run, Trial.map_scan] at all
  · rw [← Trial.scan_empty mid]
    constructor
    · rintro ⟨_, empty⟩
      exact congrArg Prod.fst (first.unique empty)
    · intro empty
      exact ⟨_, by rwa [← empty]⟩
  · have count := elements (q := .count) (by decide)
    change Term.ComesTo it locals s _ (((fun kept => Value.int (.ofNat kept.length)) <$>
      keep (Eval.test f) vs).run.run mid) at count
    rwa [Trial.run_map, Trial.keep_run, Trial.map_through] at count
  · obtain ⟨kept, kind, elements, found⟩ := Eval.filter_run (f := f) sequence mid
    exact ⟨kept, kind, elements, found ▸ queried .filter⟩

/-! ## Queries of expressions -/

def Expr.SameAs (it : Item) (bindings : Bindings) (e e' : Expr) : Prop :=
  ∃ t t' ty, e.compile .standard bindings.scopes = .ok (t, ty) ∧
    e'.compile .standard bindings.scopes = .ok (t', ty) ∧
    ∀ s, Machine.outcome (t.run Helper.standard it) bindings.locals s =
      Machine.outcome (t'.run Helper.standard it) bindings.locals s

namespace Arg

/-- The argument is accepted as a lambda from elements of type `elem` to values of type `ty`. -/
def Maps (bindings : Bindings) (elem ty : Ty) (f : Arg Expr) : Prop :=
  ∃ body, f.body.compile .standard (f.scope elem :: bindings.scopes) = .ok (body, ty)

end Arg

theorem Expr.SameAs.of_eval {it : Item} {bindings : Bindings} {e e' : Expr} {t t' : Term} {ty : Ty}
    (compiled : e.compile .standard bindings.scopes = .ok (t, ty))
    (compiled' : e'.compile .standard bindings.scopes = .ok (t', ty))
    (same : t.eval Helper.standard it bindings.locals =
      t'.eval Helper.standard it bindings.locals) :
    e.SameAs it bindings e' := by
  refine ⟨t, t', ty, compiled, compiled', fun s => ?_⟩
  rw [Term.run_actsAs, Term.run_actsAs, same]

/-- Laws of the methods of a sequence with elements of type `elem`. -/
structure Query.Laws (it : Item) (bindings : Bindings) (source : Expr) (elem : Ty) : Prop where
  all : ∀ p pos, Arg.Maps bindings elem .bool p →
    (Expr.method source "All" [p]).SameAs it bindings
      (.unary pos .not (.method source "Any" [p.negated]))
  count : ∀ p, Arg.Maps bindings elem .bool p →
    (Expr.method source "Count" [p]).SameAs it bindings
      (.method (.method source "Where" [p]) "Count" [])
  sum : ∀ f ty, ty.isNumeric → Arg.Maps bindings elem ty f →
    (Expr.method source "Sum" [f]).SameAs it bindings
      (.method (.method source "Select" [f]) "Sum" [])
  /-- What is kept of modifiers is what is kept of the list of their records. -/
  filter : ∀ p pos pos' name, Arg.Maps bindings elem .bool p →
    let listed (e : Expr) : Expr := .method e "Select" [.self pos pos' name]
    (Expr.method (listed source) "Where" [p]).SameAs it bindings
      (listed (.method source "Where" [p]))

theorem Query.laws {it : Item} {bindings : Bindings} {source : Expr} {t : Term} {ty elem : Ty}
    (values : bindings.Typed it) (compiled : source.compile .standard bindings.scopes = .ok (t, ty))
    (sequence : ty.element? = some elem) : Query.Laws it bindings source elem where
  all := by
    rintro p pos ⟨body, within⟩
    have any : (Expr.method source "Any" [p.negated]).compile .standard bindings.scopes =
        .ok (.query .any t (.not body), .bool) :=
      Typing.compile_query compiled sequence .any (Arg.compile_negated within)
    have opposite := Typing.compile_not pos any
    refine .of_eval (Typing.compile_query compiled sequence .all within) opposite ?_
    simp only [Term.eval, Eval.query_all, bind_assoc]
  count := by
    rintro p ⟨body, within⟩
    have kept := Typing.compile_query compiled sequence .filter within
    refine .of_eval (Typing.compile_query compiled sequence .count within)
      (Typing.compile_method kept sequence rfl) ?_
    simp only [Term.eval, Eval.query_count, bind_assoc]
  sum := by
    rintro f mapped numeric ⟨body, within⟩
    obtain ⟨e, listed, rfl⟩ := Ty.toElem?_of_isNumeric numeric
    have mapping := Typing.compile_query compiled sequence (.map listed) within
    have added : (Expr.method (.method source "Select" [f]) "Sum" []).compile .standard
        bindings.scopes = .ok (.sum (e.toTy = .real) (.query .map t body), e.toTy) :=
      Typing.compile_method mapping rfl (by
        simp only [List.map_nil, Typing.sequenceMethod, numeric, if_true])
    refine .of_eval (Typing.compile_query compiled sequence (.sum numeric) within) added ?_
    simp only [Term.eval, bind_assoc]
    refine (Expr.admits_free Schema.standard_sound compiled values).bind_congr fun v h => ?_
    refine Eval.query_sum sequence h numeric fun v element => ?_
    have typed := values.cons (f.scope elem) (by cases f <;> exact element)
    have number := Expr.admits_free Schema.standard_sound within typed
    rwa [Bindings.locals_cons] at number
  filter := by
    rintro p pos pos' name ⟨body, within⟩
    obtain ⟨e, listed, rfl⟩ := Ty.toElem?_of_element? sequence
    have self := Arg.compile_self .standard bindings.scopes e.toTy pos pos' name
    have kept := Typing.compile_query compiled sequence .filter within
    have before := Typing.compile_query compiled sequence (.map listed) self
    have after := Typing.compile_query kept sequence (.map listed) self
    refine .of_eval (Typing.compile_query before rfl .filter within) after ?_
    have top (v : Value) : (bindings.locals.push v)[bindings.scopes.length]? = some v := by
      rw [Bindings.length_scopes, ← Bindings.size_locals, Array.getElem?_push_size]
    simp only [Term.eval, top, bind_assoc, Eval.query_filter_map]

/-- What the queries with a test come to is read off the trials of the elements, for any sequence
and any lambda on any stack. For accepted expressions it follows that the methods can be expressed
by each other, with the same values and the same faults. -/
theorem Query.meaning_of_trials (it : Item) :
    (∀ locals s t body v vs mid, Term.ComesTo it locals s t (.ok v, mid) → v.elements = .ok vs →
      Query.Scans it locals s t body v (body.trials it locals vs mid) mid) ∧
    ∀ (bindings : Bindings) source t ty elem, bindings.Typed it →
      Expr.compile .standard source bindings.scopes = .ok (t, ty) → ty.element? = some elem →
        Query.Laws it bindings source elem :=
  ⟨fun _ _ _ _ _ _ _ => scans, fun _ _ _ _ _ => laws⟩

/-- Division by the elements of a list, where the last one is zero. -/
theorem Query.meaning_of_trials_division :
    let t := Term.array [.literal (.int 1), .literal (.int 0)]
    let body := Term.compare .eq .int (.compute .div false (.literal (.int 1)) (.slot 0))
      (.literal (.int 1))
    let source := Expr.array 0 [.int 0 1, .int 0 0]
    let p := Arg.plain (.binary (.compare .eq) (.binary (.compute .div) (.int 0 1) (.name 0 "it"))
      (.int 0 1))
    (Term.query .any t body).ComesTo default #[] {} (.ok (.bool true), {}) ∧
      (Term.query .all t body).ComesTo default #[] {} (.error .divideByZero, {}) ∧
      (Expr.method source "All" [p]).SameAs default []
        (.unary 0 .not (.method source "Any" [p.negated])) := by
  intro t body source p
  have scans := (meaning_of_trials default).1 #[] {} t body (.list [.int 1, .int 0]) _ {}
    rfl rfl
  have laws := (meaning_of_trials default).2 [] source t (.list (.scalar .int)) .int nofun rfl rfl
  exact ⟨scans.any, scans.all, laws.all p 0 ⟨body, rfl⟩⟩

end LootFilter
