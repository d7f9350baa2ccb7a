import LootFilter.Language.Evaluation

/-!
# The stack of parameters

A term leaves the stack of parameters as it found it, also when it faults. So an evaluation needs no
stack: it can be handed the values of the parameters around the term.
-/

namespace LootFilter

namespace Machine

variable {α β : Type} {locals : Locals}

/-- What an evaluation comes to on a stack, with the stack and the session after it. -/
def outcome (e : Machine α) (locals : Locals) (s : Session) : (Except Fault α × Locals) × Session :=
  (e.run.run locals).run s

theorem outcome_bind (e : Machine α) (f : α → Machine β) (locals : Locals) (s : Session) :
    outcome (e >>= f) locals s = match outcome e locals s with
      | ((.ok a, after), s) => outcome (f a) after s
      | ((.error fault, after), s) => ((.error fault, after), s) := by
  change ExceptT.bindCont f (outcome e locals s).1.1 (outcome e locals s).1.2
    (outcome e locals s).2 = _
  rcases outcome e locals s with ⟨⟨answer, after⟩, s⟩
  cases answer <;> rfl

/-- On a stack the evaluation does what `plain` does and leaves the stack as it was. -/
def ActsAs (e : Machine α) (locals : Locals) (plain : EvalM α) : Prop :=
  ∀ s, outcome e locals s = (((plain.run.run s).1, locals), (plain.run.run s).2)

theorem ActsAs.within {e : Machine α} {plain : EvalM α} (h : e.ActsAs locals plain) :
    e.within locals = plain := by
  funext s
  change ((outcome e locals s).1.1, (outcome e locals s).2) = plain.run.run s
  rw [h s]
  rfl

theorem actsAs_pure (a : α) : ActsAs (pure a) locals (pure a) := fun _ => rfl

theorem actsAs_throw (fault : Fault) : ActsAs (throw fault : Machine α) locals (throw fault) :=
  fun _ => rfl

theorem actsAs_ask (e : EvalM α) : (ask e).ActsAs locals e := fun _ => rfl

theorem ActsAs.bind {e : Machine α} {plain : EvalM α} {f : α → Machine β} {g : α → EvalM β}
    (first : e.ActsAs locals plain) (next : ∀ a, (f a).ActsAs locals (g a)) :
    (e >>= f).ActsAs locals (plain >>= g) := by
  intro s
  rw [outcome_bind, first s]
  change _ = (((ExceptT.bindCont g (plain.run.run s).1 (plain.run.run s).2).1, locals),
    (ExceptT.bindCont g (plain.run.run s).1 (plain.run.run s).2).2)
  rcases plain.run.run s with ⟨answer, s⟩
  cases answer with
  | ok a => exact next a s
  | error fault => rfl

theorem ActsAs.map {e : Machine α} {plain : EvalM α} (h : e.ActsAs locals plain) (f : α → β) :
    (f <$> e).ActsAs locals (f <$> plain) := by
  rw [map_eq_pure_bind, map_eq_pure_bind]
  exact h.bind fun a => actsAs_pure (f a)

theorem ActsAs.withLocal {e : Machine α} {plain : EvalM α} {v : Value}
    (h : e.ActsAs (locals.push v) plain) : (withLocal v e).ActsAs locals plain := by
  intro s
  have pushed := h s
  change (((outcome e (locals.push v) s).1.1, (outcome e (locals.push v) s).1.2.pop),
    (outcome e (locals.push v) s).2) = _
  rw [pushed, Array.pop_push]

theorem actsAs_get {f : Locals → Machine α} {plain : EvalM α}
    (h : (f locals).ActsAs locals plain) : (get >>= f).ActsAs locals plain := fun s => h s

/-! ## Sequences -/

theorem actsAs_pureOf (answer : Except Fault α) :
    ActsAs (Eval.pureOf answer) locals (Eval.pureOf answer) := by
  cases answer with
  | ok a => exact actsAs_pure a
  | error fault => exact actsAs_throw fault

variable {f : α → Machine β} {g : α → EvalM β}

theorem actsAs_mapM (h : ∀ a, (f a).ActsAs locals (g a)) (as : List α) :
    (as.mapM f).ActsAs locals (as.mapM g) := by
  induction as with
  | nil => exact actsAs_pure []
  | cons a as ih =>
    simp only [List.mapM_cons]
    exact (h a).bind fun b => ih.bind fun bs => actsAs_pure (b :: bs)

theorem actsAs_foldlM {f : β → α → Machine β} {g : β → α → EvalM β}
    (h : ∀ b a, (f b a).ActsAs locals (g b a)) (as : List α) (b : β) :
    (as.foldlM f b).ActsAs locals (as.foldlM g b) := by
  induction as generalizing b with
  | nil => exact actsAs_pure b
  | cons a as ih =>
    simp only [List.foldlM_cons]
    exact (h b a).bind ih

variable {test : α → Machine Bool} {plain : α → EvalM Bool}

theorem actsAs_anyM (h : ∀ a, (test a).ActsAs locals (plain a)) (as : List α) :
    (as.anyM test).ActsAs locals (as.anyM plain) := by
  induction as with
  | nil => exact actsAs_pure false
  | cons a as ih =>
    simp only [List.anyM]
    apply (h a).bind
    intro b
    cases b with
    | true => exact actsAs_pure true
    | false => exact ih

theorem actsAs_allM (h : ∀ a, (test a).ActsAs locals (plain a)) (as : List α) :
    (as.allM test).ActsAs locals (as.allM plain) := by
  induction as with
  | nil => exact actsAs_pure true
  | cons a as ih =>
    simp only [List.allM]
    apply (h a).bind
    intro b
    cases b with
    | true => exact ih
    | false => exact actsAs_pure false

theorem actsAs_keep (h : ∀ a, (test a).ActsAs locals (plain a)) (as : List α) :
    (Eval.keep test as).ActsAs locals (Eval.keep plain as) := by
  induction as with
  | nil => exact actsAs_pure []
  | cons a as ih =>
    simp only [Eval.keep]
    apply (h a).bind
    intro b
    cases b with
    | true => exact ih.bind fun kept => actsAs_pure (a :: kept)
    | false => exact ih

theorem actsAs_firstThat (h : ∀ a, (test a).ActsAs locals (plain a)) (as : List α) :
    (Eval.firstThat test as).ActsAs locals (Eval.firstThat plain as) := by
  induction as with
  | nil => exact actsAs_throw .emptySequence
  | cons a as ih =>
    simp only [Eval.firstThat]
    apply (h a).bind
    intro b
    cases b with
    | true => exact actsAs_pure a
    | false => exact ih

section lambda

variable {f : Value → Machine Value} {g : Value → EvalM Value}

theorem actsAs_test (h : ∀ v, (f v).ActsAs locals (g v)) (v : Value) :
    (Eval.test f v).ActsAs locals (Eval.test g v) :=
  (h v).bind fun w => actsAs_pureOf w.asBool

theorem actsAs_sumOf (h : ∀ v, (f v).ActsAs locals (g v)) (isReal : Bool) (vs : List Value) :
    (Eval.sumOf isReal f vs).ActsAs locals (Eval.sumOf isReal g vs) := by
  cases isReal with
  | true =>
    refine (actsAs_foldlM (fun sum v => ?_) vs (0.0 : Float)).map Value.real
    exact (h v).bind fun w => (actsAs_pureOf w.asReal).bind fun x => actsAs_pure (sum + x)
  | false =>
    refine (actsAs_foldlM (fun sum v => ?_) vs (0 : Int64)).map Value.int
    exact (h v).bind fun w => (actsAs_pureOf w.asInt).bind fun n => actsAs_pure (sum + n)

theorem actsAs_queryElements (h : ∀ v, (f v).ActsAs locals (g v)) (q : Query) (vs : List Value) :
    (Eval.queryElements q f vs).ActsAs locals (Eval.queryElements q g vs) := by
  have tested := actsAs_test h
  cases q with
  | count => exact (actsAs_keep tested vs).bind fun _ => actsAs_pure _
  | any => exact (actsAs_anyM tested vs).bind fun _ => actsAs_pure _
  | all => exact (actsAs_allM tested vs).bind fun _ => actsAs_pure _
  | filter => exact (actsAs_keep tested vs).bind fun _ => actsAs_pure _
  | first => exact actsAs_firstThat tested vs
  | map => exact (actsAs_mapM h vs).bind fun _ => actsAs_pure _
  | sum isReal => exact actsAs_sumOf h isReal vs

theorem actsAs_query (h : ∀ v, (f v).ActsAs locals (g v)) (q : Query) (target : Value) :
    (Eval.query q f target).ActsAs locals (Eval.query q g target) := by
  unfold Eval.query
  split
  · exact (actsAs_keep (fun placed => actsAs_test h (.record (.modifier placed))) _).bind
      fun _ => actsAs_pure _
  · exact (actsAs_pureOf _).bind fun vs => actsAs_queryElements h _ vs

end lambda

end Machine

namespace Term

open Eval (pureOf)

section

variable (helpers : List Helper) (root : Item)

mutual

/-- The value of a term, with the values of the parameters around it. -/
def eval : Term → Locals → EvalM Value
  | literal l, _ => pure l.toValue
  | .root, _ => pure (.record (.item root))
  | slot n, locals =>
    match locals[n]? with
    | some v => pure v
    | none => throw (.typeMismatch (.unboundLocal n))
  | field target place, locals => do Eval.field (← eval target locals) place
  | toReal t, locals => do return .real (← pureOf (← eval t locals).asReal)
  | not t, locals => do return .bool (!(← pureOf (← eval t locals).asBool))
  | negate isReal t, locals => do pureOf (Eval.negate isReal (← eval t locals))
  | logical op operands, locals => do return .bool (← evalLogical op operands locals)
  | compare c kind left right, locals => do
    let l ← eval left locals
    let r ← eval right locals
    pureOf (Eval.compare c kind l r)
  | compute a isReal left right, locals => do
    let l ← eval left locals
    let r ← eval right locals
    pureOf (Eval.compute a isReal l r)
  | join left right, locals => do
    let l ← eval left locals
    let r ← eval right locals
    let s ← pureOf l.print
    return .text (s ++ (← pureOf r.print))
  | choice condition yes no, locals => do
    if ← pureOf (← eval condition locals).asBool then eval yes locals else eval no locals
  | array items, locals => do return .list (← evalAll items locals)
  | index target i, locals => do
    let vs ← pureOf (← eval target locals).elements
    pureOf (Eval.nth vs (← pureOf (← eval i locals).asInt))
  | textLength t, locals => do return .int (.ofNat (← pureOf (← eval t locals).asText).length)
  | textTest test target wanted mode, locals => do
    let s ← eval target locals
    let w ← eval wanted locals
    let mode ← pureOf (Eval.asMode (← eval mode locals))
    let s ← pureOf s.asText
    return .bool (Eval.testText test mode s (← pureOf w.asText))
  | textMap map t, locals => do
    return .text (Eval.mapText map (← pureOf (← eval t locals).asText))
  | count t, locals => do return .int (.ofNat (← pureOf (← eval t locals).elements).length)
  | isNonempty t, locals => do return .bool (!(← pureOf (← eval t locals).elements).isEmpty)
  | first t, locals => do pureOf (Eval.head (← pureOf (← eval t locals).elements))
  | sum isReal t, locals => do
    let vs ← pureOf (← eval t locals).elements
    Eval.sumOf isReal pure vs
  | contains t wanted, locals => do
    let vs ← pureOf (← eval t locals).elements
    let w ← eval wanted locals
    return .bool (vs.any (·.equals w))
  | query q t body, locals => do
    Eval.query q (fun v => eval body (locals.push v)) (← eval t locals)
  | modStats t, locals => do
    let mods ← pureOf (← eval t locals).asMods
    return .intStats (← Session.sumMods mods)
  | stat table key, locals => do
    let t ← eval table locals
    pureOf (Eval.stat t (← pureOf (← eval key locals).asText))
  | statCount table, locals => do pureOf (Eval.statCount (← eval table locals))
  | hasStat table key, locals => do
    let t ← eval table locals
    pureOf (Eval.hasStat t (← pureOf (← eval key locals).asText))
  | helper i args, locals => do Eval.callHelper helpers root i (← evalArgs args locals)

def evalAll : List Term → Locals → EvalM (List Value)
  | [], _ => pure []
  | t :: ts, locals => do
    let v ← eval t locals
    return v :: (← evalAll ts locals)

def evalLogical (op : LogicalOp) : List Term → Locals → EvalM Bool
  | [], _ => pure op.neutral
  | t :: ts, locals => do
    let b ← pureOf (← eval t locals).asBool
    if b = op.neutral then evalLogical op ts locals else return b

def evalArgs : List (HelperArg Term) → Locals → EvalM (List Argument)
  | [], _ => pure []
  | .value t :: args, locals => do
    let v ← eval t locals
    return .value v :: (← evalArgs args locals)
  | .lambda height body :: args, locals => do
    let test := Eval.test fun v => eval body ((locals.take height).push v)
    return .lambda test :: (← evalArgs args locals)

end

open Machine in
mutual

/-- A term leaves the stack as it found it, and what it comes to depends only on the values of the
parameters that stand there. -/
theorem run_actsAs (t : Term) (locals : Locals) :
    (run helpers root t).ActsAs locals (eval helpers root t locals) := by
  match t with
  | literal l => exact actsAs_pure _
  | .root => exact actsAs_pure _
  | slot n =>
    refine actsAs_get ?_
    unfold eval
    cases locals[n]? with
    | some v => exact actsAs_pure v
    | none => exact actsAs_throw _
  | field target place => exact (run_actsAs target locals).bind fun v => actsAs_ask _
  | toReal t =>
    apply (run_actsAs t locals).bind
    intro v
    exact (actsAs_pureOf v.asReal).bind fun x => actsAs_pure _
  | not t =>
    apply (run_actsAs t locals).bind
    intro v
    exact (actsAs_pureOf v.asBool).bind fun b => actsAs_pure _
  | negate isReal t => exact (run_actsAs t locals).bind fun v => actsAs_pureOf _
  | logical op operands =>
    exact (runLogical_actsAs op operands locals).bind fun b => actsAs_pure _
  | compare c kind left right =>
    apply (run_actsAs left locals).bind
    intro l
    exact (run_actsAs right locals).bind fun r => actsAs_pureOf _
  | compute a isReal left right =>
    apply (run_actsAs left locals).bind
    intro l
    exact (run_actsAs right locals).bind fun r => actsAs_pureOf _
  | join left right =>
    apply (run_actsAs left locals).bind
    intro l
    apply (run_actsAs right locals).bind
    intro r
    apply (actsAs_pureOf l.print).bind
    intro s
    exact (actsAs_pureOf r.print).bind fun s' => actsAs_pure _
  | choice condition yes no =>
    refine (run_actsAs condition locals).bind fun v => (actsAs_pureOf v.asBool).bind fun b => ?_
    cases b with
    | true => exact run_actsAs yes locals
    | false => exact run_actsAs no locals
  | array items => exact (runAll_actsAs items locals).bind fun vs => actsAs_pure _
  | index target i =>
    apply (run_actsAs target locals).bind
    intro v
    apply (actsAs_pureOf v.elements).bind
    intro vs
    apply (run_actsAs i locals).bind
    intro w
    exact (actsAs_pureOf w.asInt).bind fun n => actsAs_pureOf _
  | textLength t =>
    apply (run_actsAs t locals).bind
    intro v
    exact (actsAs_pureOf v.asText).bind fun s => actsAs_pure _
  | textTest test target wanted mode =>
    apply (run_actsAs target locals).bind
    intro v
    apply (run_actsAs wanted locals).bind
    intro w
    apply (run_actsAs mode locals).bind
    intro m
    apply (actsAs_pureOf (Eval.asMode m)).bind
    intro mode
    apply (actsAs_pureOf v.asText).bind
    intro s
    exact (actsAs_pureOf w.asText).bind fun s' => actsAs_pure _
  | textMap map t =>
    apply (run_actsAs t locals).bind
    intro v
    exact (actsAs_pureOf v.asText).bind fun s => actsAs_pure _
  | count t =>
    apply (run_actsAs t locals).bind
    intro v
    exact (actsAs_pureOf v.elements).bind fun vs => actsAs_pure _
  | isNonempty t =>
    apply (run_actsAs t locals).bind
    intro v
    exact (actsAs_pureOf v.elements).bind fun vs => actsAs_pure _
  | first t =>
    apply (run_actsAs t locals).bind
    intro v
    exact (actsAs_pureOf v.elements).bind fun vs => actsAs_pureOf _
  | sum isReal t =>
    apply (run_actsAs t locals).bind
    intro v
    exact (actsAs_pureOf v.elements).bind fun vs => actsAs_sumOf actsAs_pure isReal vs
  | contains t wanted =>
    apply (run_actsAs t locals).bind
    intro v
    apply (actsAs_pureOf v.elements).bind
    intro vs
    exact (run_actsAs wanted locals).bind fun w => actsAs_pure _
  | query q t body =>
    apply (run_actsAs t locals).bind
    intro target
    -- The element is on the stack only while the body is evaluated, also if that faults.
    exact actsAs_query (fun v => (run_actsAs body (locals.push v)).withLocal) q target
  | modStats t =>
    apply (run_actsAs t locals).bind
    intro v
    apply (actsAs_pureOf v.asMods).bind
    intro mods
    exact (actsAs_ask _).bind fun sum => actsAs_pure _
  | stat table key =>
    apply (run_actsAs table locals).bind
    intro t
    apply (run_actsAs key locals).bind
    intro v
    exact (actsAs_pureOf v.asText).bind fun s => actsAs_pureOf _
  | statCount table => exact (run_actsAs table locals).bind fun t => actsAs_pureOf _
  | hasStat table key =>
    apply (run_actsAs table locals).bind
    intro t
    apply (run_actsAs key locals).bind
    intro v
    exact (actsAs_pureOf v.asText).bind fun s => actsAs_pureOf _
  | helper i args => exact (runArgs_actsAs args locals).bind fun args => actsAs_ask _

theorem runAll_actsAs (ts : List Term) (locals : Locals) :
    (runAll helpers root ts).ActsAs locals (evalAll helpers root ts locals) := by
  match ts with
  | [] => exact actsAs_pure []
  | t :: ts =>
    apply (run_actsAs t locals).bind
    intro v
    exact (runAll_actsAs ts locals).bind fun vs => actsAs_pure _

theorem runLogical_actsAs (op : LogicalOp) (ts : List Term) (locals : Locals) :
    (runLogical helpers root op ts).ActsAs locals (evalLogical helpers root op ts locals) := by
  match ts with
  | [] => exact actsAs_pure _
  | t :: ts =>
    refine (run_actsAs t locals).bind fun v => (actsAs_pureOf v.asBool).bind fun b => ?_
    by_cases goesOn : b = op.neutral
    · simpa only [if_pos goesOn] using runLogical_actsAs op ts locals
    · simpa only [if_neg goesOn] using actsAs_pure b

theorem runArgs_actsAs (args : List (HelperArg Term)) (locals : Locals) :
    (runArgs helpers root args).ActsAs locals (evalArgs helpers root args locals) := by
  match args with
  | [] => exact actsAs_pure []
  | .value t :: args =>
    apply (run_actsAs t locals).bind
    intro v
    exact (runArgs_actsAs args locals).bind fun args => actsAs_pure _
  | .lambda height body :: args =>
    -- The helper evaluates the body on the part of the stack that was there when it was passed.
    refine actsAs_get ((runArgs_actsAs args locals).bind fun args => ?_)
    have enclosed (v : Value) := (run_actsAs body ((locals.take height).push v)).within
    simp only [enclosed]
    exact actsAs_pure _

end

theorem run_within (t : Term) (locals : Locals) :
    (run helpers root t).within locals = eval helpers root t locals :=
  (run_actsAs helpers root t locals).within

end

end Term

end LootFilter
