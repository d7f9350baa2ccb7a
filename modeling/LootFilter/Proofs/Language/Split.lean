import LootFilter.Proofs.Language.Chain
import LootFilter.Proofs.Session.Replay
import LootFilter.Proofs.Session.Stats

/-!
# Splitting a collection of modifiers

A lambda splits a collection of modifiers into those that it keeps and those that its negation
keeps. Their stat sums add up to the sum of the collection, which may be kept already.
-/

namespace LootFilter

open Eval (keep pureOf)
open Conduct (run_bind)

namespace Eval

variable {α : Type} {test : α → EvalM Bool}

/-- The elements that pass a test, and those that do not. -/
def halves (test : α → EvalM Bool) : List α → EvalM (List α × List α)
  | [] => pure ([], [])
  | a :: as => do
    let b ← test a
    let (kept, dropped) ← halves test as
    return if b then (a :: kept, dropped) else (kept, a :: dropped)

theorem keep_eq_halves (as : List α) : keep test as = Prod.fst <$> halves test as := by
  induction as with
  | nil => rfl
  | cons a as ih =>
    rw [keep, halves, ih]
    simp only [map_bind, bind_map_left]
    congr 1
    funext b
    cases b <;> simp

theorem keep_not_eq_halves (as : List α) :
    keep (fun a => (!·) <$> test a) as = Prod.snd <$> halves test as := by
  induction as with
  | nil => rfl
  | cons a as ih =>
    rw [keep, halves, ih]
    simp only [map_bind, bind_map_left]
    congr 1
    funext b
    cases b <;> simp

theorem admits_halves {C : Conduct} {as : List α}
    (h : ∀ a ∈ as, C.Admits (test a) fun _ => True) : C.Admits (halves test as) fun _ => True := by
  induction as with
  | nil => exact .pure trivial
  | cons a as ih =>
    refine (h a (.head as)).bind fun b _ => ?_
    exact (ih fun a mem => h a (.tail _ mem)).bind fun _ _ => .pure trivial

theorem halves_run (as : List α) (s : Session)
    (passes : ∀ trial ∈ Trial.each test as s, trial.outcome.isOk) :
    ∃ kept dropped, (kept ++ dropped).Perm as ∧
      (halves test as).run.run s = (.ok (kept, dropped), Trial.last (Trial.each test as s) s) := by
  induction as generalizing s with
  | nil => exact ⟨[], [], .nil, rfl⟩
  | cons a as ih =>
    rw [Trial.each] at passes ⊢
    obtain ⟨first, others⟩ := List.forall_mem_cons.1 passes
    obtain ⟨kept, dropped, perm, run⟩ := ih _ others
    rw [halves, run_bind]
    generalize (test a).run.run s = trial at first run ⊢
    obtain ⟨answer, after⟩ := trial
    cases answer with
    | error fault => cases first
    | ok b =>
      dsimp only at run ⊢
      rw [run_bind, run]
      cases b with
      | true => exact ⟨a :: kept, dropped, perm.cons a, rfl⟩
      | false => exact ⟨kept, a :: dropped, (List.perm_middle).trans (perm.cons a), rfl⟩

end Eval

/-! ## Terms -/

namespace Term

variable {it : Item} {locals : Locals} {s mid after : Session} {t u body : Term} {mods : Mods}
  {table : StatTable Int64} {key : String}

def halves (it : Item) (locals : Locals) (t body : Term) :
    EvalM (List PlacedModifier × List PlacedModifier) := do
  let mods ← pureOf (← t.eval Helper.standard it locals).asMods
  let test := Eval.test fun v => body.eval Helper.standard it (locals.push v)
  Eval.halves (fun placed => test (.record (.modifier placed))) mods.toList

theorem comesTo_modStats (found : t.ComesTo it locals s (.ok (.mods mods), mid)) :
    (modStats t).ComesTo it locals s
      (.ok (.intStats ((Session.sumMods mods).run mid).1), ((Session.sumMods mods).run mid).2) := by
  rw [comesTo_iff] at found ⊢
  rw [eval, run_bind, found]
  rfl

theorem comesTo_stat (found : t.ComesTo it locals s (.ok (.intStats table), after)) :
    (stat t (.literal (.text key))).ComesTo it locals s (.ok (.int (table.get key)), after) := by
  rw [comesTo_iff] at found ⊢
  rw [eval, run_bind, found]
  rfl

theorem comesTo_hasStat (found : t.ComesTo it locals s (.ok (.intStats table), after)) :
    (hasStat t (.literal (.text key))).ComesTo it locals s
      (.ok (.bool (table.contains key)), after) := by
  rw [comesTo_iff] at found ⊢
  rw [eval, run_bind, found]
  rfl

theorem comesTo_add {m n : Int64} (first : t.ComesTo it locals s (.ok (.int m), mid))
    (second : u.ComesTo it locals mid (.ok (.int n), after)) :
    (compute .add false t u).ComesTo it locals s (.ok (.int (m + n)), after) := by
  rw [comesTo_iff] at first second ⊢
  rw [eval, run_bind, first]
  dsimp only
  rw [run_bind, second]
  rfl

theorem comesTo_or {a b : Bool} (first : t.ComesTo it locals s (.ok (.bool a), mid))
    (second : u.ComesTo it locals mid (.ok (.bool b), after)) :
    (logical .or [t, u]).ComesTo it locals s
      (.ok (.bool (a || b)), if a then mid else after) := by
  rw [comesTo_iff] at first second ⊢
  have rest : (evalLogical Helper.standard it .or [u] locals).run.run mid = (.ok b, after) := by
    rw [evalLogical, run_bind, second]
    cases b <;> rfl
  have chain : (evalLogical Helper.standard it .or [t, u] locals).run.run s =
      (.ok (a || b), if a then mid else after) := by
    rw [evalLogical, run_bind, first]
    cases a with
    | true => rfl
    | false => exact rest
  rw [eval, run_bind, chain]
  rfl

/-- What a lambda keeps of the modifiers, and what its negation does. -/
structure Splits (it : Item) (locals : Locals) (s : Session) (t body : Term)
    (kept dropped : List PlacedModifier) (after : Session) : Prop where
  kept : (query .filter t body).ComesTo it locals s (.ok (.mods (.picked kept)), after)
  dropped : (query .filter t (.not body)).ComesTo it locals s (.ok (.mods (.picked dropped)), after)

theorem exists_halves (found : t.ComesTo it locals s (.ok (.mods mods), mid))
    (passes : ∀ trial ∈ body.trials it locals (Eval.records mods.toList) mid, trial.outcome.isOk) :
    let tried := Trial.last (body.trials it locals (Eval.records mods.toList) mid) mid
    ∃ kept dropped, (kept ++ dropped).Perm mods.toList ∧
      (halves it locals t body).run.run s = (.ok (kept, dropped), tried) := by
  rw [trials_eq, Eval.records, Trial.each_map] at passes ⊢
  rw [Trial.last_map]
  have passes := List.forall_mem_map.1 passes
  obtain ⟨kept, dropped, parts, run⟩ := Eval.halves_run mods.toList mid passes
  refine ⟨kept, dropped, parts, ?_⟩
  rw [halves, run_bind, comesTo_iff.1 found]
  exact run

section split

variable {bindings : Bindings} {source : Expr} {p : Arg Expr} (subject : it.place = .subject)
  (values : bindings.Typed it)
  (compiled : source.compile .standard bindings.scopes = .ok (t, .mods))
  (within : p.body.compile .standard (p.scope (.record .modifier) :: bindings.scopes) =
    .ok (body, .bool))

include values compiled

theorem filter_eq_halves : (query .filter t body).eval Helper.standard it bindings.locals =
    (fun parts => .mods (.picked parts.1)) <$> halves it bindings.locals t body := by
  rw [eval, halves]
  simp only [map_bind]
  -- Queries of other sequences would differ, but the source comes to nothing but modifiers.
  refine (Expr.admits_free Schema.standard_sound compiled values).bind_congr fun v h => ?_
  cases h with
  | @mods mods _ =>
    have placed : (pureOf (Value.mods mods).asMods : EvalM Mods) = pure mods := rfl
    simp only [Eval.query, Eval.keep_eq_halves, placed, pure_bind, bind_map_left]
    rw [map_eq_pure_bind]

theorem filter_not_eq_halves :
    (query .filter t (.not body)).eval Helper.standard it bindings.locals =
      (fun parts => .mods (.picked parts.2)) <$> halves it bindings.locals t body := by
  rw [eval, halves]
  simp only [map_bind]
  refine (Expr.admits_free Schema.standard_sound compiled values).bind_congr fun v h => ?_
  cases h with
  | @mods mods _ =>
    have placed : (pureOf (Value.mods mods).asMods : EvalM Mods) = pure mods := rfl
    simp only [Eval.query, eval, Eval.test_not, Eval.keep_not_eq_halves, placed, pure_bind,
      bind_map_left]
    rw [map_eq_pure_bind]

theorem splits_of_halves {kept dropped : List PlacedModifier}
    (run : (halves it bindings.locals t body).run.run s = (.ok (kept, dropped), after)) :
    Splits it bindings.locals s t body kept dropped after := by
  constructor
  · rw [comesTo_iff, filter_eq_halves values compiled, Trial.run_map, run]
    rfl
  · rw [comesTo_iff, filter_not_eq_halves values compiled, Trial.run_map, run]
    rfl

include within

theorem admits_halves : (Conduct.free it).Admits (halves it bindings.locals t body)
    fun _ => True := by
  refine (Expr.admits_free Schema.standard_sound compiled values).bind fun v h => ?_
  refine (Conduct.answers_asMods h).admits.bind fun mods _ => ?_
  refine Eval.admits_halves fun placed _ => ?_
  have typed := values.cons (p.scope (.record .modifier))
    (v := .record (.modifier placed)) (by cases p <;> exact .record trivial)
  have tested := Expr.admits_free Schema.standard_sound within typed
  rw [Bindings.locals_cons] at tested
  exact tested.bind fun v h => (Conduct.answers_asBool h).admits

include subject

/-- While what was kept after a split is kept, the modifiers are split in the same way, and nothing
more is kept. -/
theorem splits_again {kept dropped : List PlacedModifier} {s' : Session}
    (run : (halves it bindings.locals t body).run.run s = (.ok (kept, dropped), after))
    (memos : s'.memos = after.memos) :
    ∃ after', Splits it bindings.locals s' t body kept dropped after' ∧
      after'.SameMemos it after := by
  have same : s'.SameMemos it after := Session.sameMemos_of_memos memos
  have replays := (admits_halves values compiled within).replays subject
  have below : ((halves it bindings.locals t body).run.run s).2.Below it s' := by
    rw [run]
    exact same.symm.below
  obtain ⟨answer, again⟩ := replays.again s s' below
  rw [run] at answer
  refine ⟨((halves it bindings.locals t body).run.run s').2, ?_, again.trans same⟩
  exact splits_of_halves values compiled (Prod.ext answer rfl)

end split

end Term

/-! ## Expressions -/

namespace Mods

variable {mods : Mods} {kept dropped : List PlacedModifier}

theorem get_of_parts (parts : (kept ++ dropped).Perm mods.toList) (key : String) :
    (picked kept).sum.get key + (picked dropped).sum.get key = mods.sum.get key := by
  have same := Modifier.get?_of_perm ((parts.map PlacedModifier.modifier).flatMap_right _) key
  rw [sum, sum, sum, toList, toList, ← Modifier.get_append, ← List.map_append, StatTable.get, same,
    StatTable.get]

theorem contains_of_parts (parts : (kept ++ dropped).Perm mods.toList) (key : String) :
    ((picked kept).sum.contains key || (picked dropped).sum.contains key) =
      mods.sum.contains key := by
  have same := Modifier.get?_of_perm ((parts.map PlacedModifier.modifier).flatMap_right _) key
  rw [sum, sum, sum, toList, toList, ← Modifier.contains_append, ← List.map_append,
    StatTable.contains, same, StatTable.contains]

end Mods

namespace Expr

variable {it : Item} {bindings : Bindings} {s mid after : Session} {e e' : Expr} {mods : Mods}

/-- The expression is accepted as one of the type, and comes to the value. -/
def Yields (it : Item) (bindings : Bindings) (s : Session) (e : Expr) (ty : Ty) (v : Value)
    (after : Session) : Prop :=
  ∃ t, e.compile .standard bindings.scopes = .ok (t, ty) ∧
    t.ComesTo it bindings.locals s (.ok v, after)

/-- What the sum of some modifiers has for a key. -/
def statOf (e : Expr) (pos : Nat) (key : String) : Expr :=
  .index (.method e "GetStats" []) (.text pos key)

def hasStatOf (e : Expr) (pos : Nat) (key : String) : Expr :=
  .method (.method e "GetStats" []) "ContainsKey" [.plain (.text pos key)]

theorem Yields.stats (h : e.Yields it bindings s .mods (.mods mods) mid) :
    (Expr.method e "GetStats" []).Yields it bindings s .intStats
      (.intStats ((Session.sumMods mods).run mid).1) ((Session.sumMods mods).run mid).2 := by
  obtain ⟨t, compiled, found⟩ := h
  exact ⟨_, Typing.compile_method compiled rfl rfl, Term.comesTo_modStats found⟩

theorem Yields.statOf (h : e.Yields it bindings s .mods (.mods mods) mid) (pos : Nat)
    (key : String) : (e.statOf pos key).Yields it bindings s .int
      (.int (((Session.sumMods mods).run mid).1.get key)) ((Session.sumMods mods).run mid).2 := by
  obtain ⟨t, compiled, found⟩ := h.stats
  refine ⟨.stat t (.literal (.text key)), ?_, Term.comesTo_stat found⟩
  rw [Expr.statOf, compile, compiled]
  rfl

theorem Yields.hasStatOf (h : e.Yields it bindings s .mods (.mods mods) mid) (pos : Nat)
    (key : String) : (e.hasStatOf pos key).Yields it bindings s .bool
      (.bool (((Session.sumMods mods).run mid).1.contains key))
      ((Session.sumMods mods).run mid).2 := by
  obtain ⟨t, compiled, found⟩ := h.stats
  refine ⟨.hasStat t (.literal (.text key)), ?_, Term.comesTo_hasStat found⟩
  rw [Expr.hasStatOf, compile, compiled]
  rfl

theorem Yields.add {m n : Int64} (first : e.Yields it bindings s .int (.int m) mid)
    (second : e'.Yields it bindings mid .int (.int n) after) :
    (Expr.binary (.compute .add) e e').Yields it bindings s .int (.int (m + n)) after := by
  obtain ⟨t, compiled, found⟩ := first
  obtain ⟨u, compiled', found'⟩ := second
  refine ⟨.compute .add false t u, ?_, Term.comesTo_add found found'⟩
  rw [compile, compiled, compiled']
  rfl

theorem Yields.or {a b : Bool} (first : e.Yields it bindings s .bool (.bool a) mid)
    (second : e'.Yields it bindings mid .bool (.bool b) after) (plain : e.op? = none)
    (plain' : e'.op? = none) : (Expr.logical .or e [e']).Yields it bindings s .bool
      (.bool (a || b)) (if a then mid else after) := by
  obtain ⟨t, compiled, found⟩ := first
  obtain ⟨u, compiled', found'⟩ := second
  have single {e : Expr} {t : Term} (plain : e.op? = none)
      (compiled : e.compile .standard bindings.scopes = .ok (t, .bool)) :
      Typing.flatten .or t = [t] := by
    have kept : t.op? = e.op? := Typing.op?_of_compile compiled
    refine Typing.flatten_of_op? ?_
    rw [kept, plain]
    nofun
  have operands : Typing.operands .or bindings.scopes
      [⟨e.pos, none, e.compile .standard⟩, ⟨e'.pos, none, e'.compile .standard⟩] = .ok [t, u] := by
    simp only [Typing.operands, Typing.alone, compiled, compiled', Typing.ok_bind,
      single plain compiled, single plain' compiled']
    rfl
  refine ⟨.logical .or [t, u], ?_, Term.comesTo_or found found'⟩
  rw [compile, pendingItems, pendingItems, operands]
  rfl

theorem Yields.summed (yields : e.Yields it bindings s .mods (.mods mods) mid)
    (subject : it.place = .subject) (values : bindings.Typed it) (reached : s.Reached it) :
    ((Session.sumMods mods).run mid).1 = mods.sum := by
  obtain ⟨t, compiled, found⟩ := yields
  have admits : (Conduct.free it).Admits (t.eval Helper.standard it bindings.locals)
      fun v => v.HasTy it .mods := admits_free Schema.standard_sound compiled values
  have typed := admits.answers s
  have faithful := admits.preserves (fun allowed _ => allowed.faithful subject)
    (reached.faithful subject)
  rw [Term.comesTo_iff.1 found] at typed faithful
  cases typed with
  | mods within => exact (Session.finds_sumMods subject within mid faithful).1

/-- How the sums of what a lambda and its negation keep hang together with the sum of all modifiers.
After `tried` the lambda was tried on each of them. -/
structure SumsOfParts (it : Item) (bindings : Bindings) (source : Expr) (p : Arg Expr)
    (s tried : Session) (mods : Mods) (key : String) : Prop where
  /-- The parts' sums add up. Evaluating them keeps no sum, nor anything else, that the lambda did
  not ask for. -/
  sum : ∀ pos pos',
    let kept := (Expr.method source "Where" [p]).statOf pos key
    let dropped := (Expr.method source "Where" [p.negated]).statOf pos' key
    ∃ after, (Expr.binary (.compute .add) kept dropped).Yields it bindings s .int
      (.int (mods.sum.get key)) after ∧ after.SameMemos it tried
  contains : ∀ pos pos',
    let kept := (Expr.method source "Where" [p]).hasStatOf pos key
    let dropped := (Expr.method source "Where" [p.negated]).hasStatOf pos' key
    ∃ after, (Expr.logical .or kept [dropped]).Yields it bindings s .bool
      (.bool (mods.sum.contains key)) after ∧ after.SameMemos it tried
  /-- The sum of the same modifiers is that, whatever is kept when it is asked for. -/
  whole : ∀ s' mid pos, s'.Reached it → source.Yields it bindings s' .mods (.mods mods) mid →
    (∃ after, (source.statOf pos key).Yields it bindings s' .int (.int (mods.sum.get key)) after) ∧
      ∃ after, (source.hasStatOf pos key).Yields it bindings s' .bool
        (.bool (mods.sum.contains key)) after

/-- If a lambda fails on none of the modifiers that an expression comes to, the sums of what it and
its negation keep make up the sum of all, be that kept already or not. -/
theorem sums_of_split {source : Expr} {p : Arg Expr} {t body : Term}
    (subject : it.place = .subject) (values : bindings.Typed it)
    (compiled : source.compile .standard bindings.scopes = .ok (t, .mods))
    (within : p.body.compile .standard (p.scope (.record .modifier) :: bindings.scopes) =
      .ok (body, .bool))
    (found : t.ComesTo it bindings.locals s (.ok (.mods mods), mid)) :
    let trials := body.trials it bindings.locals (Eval.records mods.toList) mid
    (∀ trial ∈ trials, trial.outcome.isOk) →
      ∀ key, SumsOfParts it bindings source p s (Trial.last trials mid) mods key := by
  intro trials passes key
  obtain ⟨kept, dropped, parts, run⟩ := Term.exists_halves found passes
  have first := Term.splits_of_halves values compiled run
  -- The second part is found in a session in which the first one was summed.
  obtain ⟨after, again, same⟩ := Term.splits_again subject values compiled within run
    (show ((Session.sumMods (.picked kept)).run (Trial.last trials mid)).2.memos = _ from rfl)
  have left : (Expr.method source "Where" [p]).Yields it bindings s .mods (.mods (.picked kept))
      (Trial.last trials mid) := ⟨_, Typing.compile_query compiled rfl .filter within, first.kept⟩
  have right : (Expr.method source "Where" [p.negated]).Yields it bindings _ .mods
      (.mods (.picked dropped)) after :=
    ⟨_, Typing.compile_query compiled rfl .filter (Arg.compile_negated within), again.dropped⟩
  refine ⟨fun pos pos' => ?_, fun pos pos' => ?_, fun s' mid pos reached yields => ?_⟩
  · rw [← Mods.get_of_parts parts]
    exact ⟨_, (left.statOf pos key).add (right.statOf pos' key), same⟩
  · rw [← Mods.contains_of_parts parts]
    refine ⟨_, (left.hasStatOf pos key).or (right.hasStatOf pos' key) rfl rfl, ?_⟩
    split
    · exact Session.sameMemos_of_memos rfl
    · exact same
  · rw [← yields.summed subject values reached]
    exact ⟨⟨_, yields.statOf pos key⟩, ⟨_, yields.hasStatOf pos key⟩⟩

/-- Two modifiers told apart by their names. -/
theorem sums_of_split_named :
    let gain : Modifier := { Modifier.ofName "Gain" with stats := [("life", 5)] }
    let loss : Modifier := { Modifier.ofName "Loss" with stats := [("life", -2)] }
    let it := Item.snapshot { (default : Attributes) with mods := { explicit := [gain, loss] } }
      none none
    let source : Expr := .member (.name 0 "ModsInfo") "ExplicitMods"
    let named : Expr := .binary (.compare .eq) (.member (.name 0 "m") "Name") (.text 0 "Gain")
    ∃ tried, SumsOfParts it [] source (.lambda 0 "m" named) {} tried
      (.partition it .explicitMods) "life" := by
  intro gain loss it source named
  have values : Bindings.Typed it [] := fun _ mem => nomatch mem
  have compiled : source.compile .standard [] = .ok (.field (.field .root 48) 2, .mods) := rfl
  have within : named.compile .standard [⟨"m", .record .modifier, false⟩] =
      .ok (.compare .eq .text (.field (.slot 0) 0) (.literal (.text "Gain")), .bool) := rfl
  obtain ⟨mid, found⟩ : ∃ mid, (Term.field (.field .root 48) 2).ComesTo it #[] {}
      (.ok (.mods (.partition it .explicitMods)), mid) := ⟨_, rfl⟩
  refine ⟨_, @sums_of_split it [] {} mid _ source (.lambda 0 "m" named) _ _ rfl values compiled
    within found ?_ "life"⟩
  exact List.forall_mem_cons.2 ⟨rfl, List.forall_mem_cons.2 ⟨rfl, fun _ mem => nomatch mem⟩⟩

end Expr

end LootFilter
