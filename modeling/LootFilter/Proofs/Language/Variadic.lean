import LootFilter.Proofs.Language.Split

/-!
# Any number of arguments

A helper that takes any number of further arguments is passed them as one list. So it makes no
difference whether a rule writes them one by one or in an array, and any other list of the same
texts does as well.
-/

namespace LootFilter

open Conduct (run_bind)

/-! ## What is accepted -/

namespace Expr

variable {schema : Schema} {scopes : Scopes} {es : List Expr}

theorem ty?_eq_some {e : Expr} {ty : Ty} :
    e.ty? schema scopes = some ty ↔ ∃ t, e.compile schema scopes = .ok (t, ty) := by
  unfold ty?
  cases e.compile schema scopes with
  | error => simp
  | ok typed => simp [Prod.ext_iff]

theorem exists_typed {tys : List Ty}
    (typed : List.Forall₂ (fun e ty => e.ty? schema scopes = some ty) es tys) :
    ∃ typed, List.Forall₂ (fun e t => e.compile schema scopes = .ok t) es typed ∧
      typed.map Prod.snd = tys := by
  induction typed with
  | nil => exact ⟨[], .nil, rfl⟩
  | cons first _ ih =>
    obtain ⟨t, compiled⟩ := ty?_eq_some.1 first
    obtain ⟨typed, rest, rfl⟩ := ih
    exact ⟨_ :: typed, .cons compiled rest, rfl⟩

end Expr

namespace Typing

variable {schema : Schema} {scopes : Scopes} {elem : ElemTy} {helper : Helper} {tail : Tail}
  {name : String} {types : List (Option Ty)}

theorem toElem?_toTy (elem : ElemTy) : elem.toTy.toElem? = some elem := by
  cases elem <;> rfl

theorem commonType_same {ty : Ty} {places : List (Nat × Ty)}
    (same : ∀ place ∈ places, place.2 = ty) : commonType ty places = .ok ty := by
  induction places with
  | nil => rfl
  | cons place places ih =>
    obtain ⟨first, others⟩ := List.forall_mem_cons.1 same
    obtain ⟨pos, found⟩ := place
    cases first
    simp only [commonType, Ty.join?, if_true]
    exact ih others

/-- Elements of one type are not widened. -/
theorem compile_array {items : List Expr} {typed : List Typed} (pos : Nat) (nonempty : items ≠ [])
    (each : List.Forall₂ (fun e t => e.compile schema scopes = .ok t) items typed)
    (same : ∀ t ∈ typed, t.2 = elem.toTy) :
    (Expr.array pos items).compile schema scopes =
      .ok (.array (typed.map Prod.fst), .list elem) := by
  have compiled : (items.map (pending schema)).mapM (alone · scopes) = .ok typed :=
    mapM_of_forall₂ (List.forall₂_map_left_iff.2 each)
  have kept : typed.map (widen · elem.toTy) = typed.map Prod.fst := by
    apply List.map_congr_left
    intro t mem
    rw [← same t mem]
    exact widen_self
  rw [Expr.compile, pendingItems_eq_map, array, compiled, ok_bind]
  cases each with
  | nil => exact absurd rfl nonempty
  | @cons e t items typed =>
    obtain ⟨first, others⟩ := List.forall_mem_cons.1 same
    have places : ∀ place ∈ ((items.map (pending schema)).map Pending.pos).zip
        (typed.map Prod.snd), place.2 = elem.toTy := by
      intro place mem
      obtain ⟨t, inside, found⟩ := List.mem_map.1 (List.of_mem_zip mem).2
      exact found.symm.trans (others t inside)
    simp only [List.map_cons, List.zip_cons_cons, first, commonType_same places, ok_bind,
      toElem?_toTy]
    exact congrArg (fun ts => Except.ok (Term.array ts, Ty.list elem)) kept

/-! ### Choosing a helper -/

theorem acceptance?_append {params : List Ty} (fit : ∀ ty ∈ params, fits ty (some ty)) :
    acceptance? { helper with params } (params.map some ++ types) =
      acceptance? { helper with params := [] } types := by
  induction params with
  | nil => rfl
  | cons param params ih =>
    obtain ⟨first, others⟩ := List.forall_mem_cons.1 fit
    rw [← ih others]
    simp only [acceptance?, List.map_cons, List.cons_append, List.length_cons,
      Nat.add_lt_add_iff_right, List.zip_cons_cons, List.all_cons, first, Bool.true_and,
      List.drop_succ_cons]

theorem fits_toTy (elem : ElemTy) : fits elem.toTy (some elem.toTy) := by
  cases elem <;> simp [fits, ElemTy.toTy, Ty.accepts]

/-- A single argument is told apart from a list of them by its type. -/
theorem not_fits_list (elem : ElemTy) : ¬fits (.list elem) (some elem.toTy) := by
  rcases elem with s | k | s
  · cases s <;> decide
  · simp [fits, ElemTy.toTy, Ty.accepts]
  · cases s <;> decide

theorem acceptance?_list (variadic : helper.variadic = some elem) :
    acceptance? { helper with params := [] } [some (.list elem)] = some .asList := by
  have fit : fits (.list elem) (some (.list elem)) := by simp [fits, Ty.accepts]
  simp [acceptance?, variadic, fit]

theorem acceptance?_elements (variadic : helper.variadic = some elem) (nonempty : types ≠ [])
    (same : ∀ ty ∈ types, ty = some elem.toTy) :
    acceptance? { helper with params := [] } types = some .asElements := by
  have fit : types.all (fits elem.toTy) :=
    List.all_eq_true.2 fun ty mem => same ty mem ▸ fits_toTy elem
  cases types with
  | nil => exact absurd rfl nonempty
  | cons ty types =>
    cases types with
    | nil =>
      obtain rfl := same ty (List.mem_singleton_self ty)
      simp [acceptance?, variadic, not_fits_list, fits_toTy]
    | cons => simp [acceptance?, variadic, fit]

/-- Helpers of other names in front of it do not matter. -/
theorem choose?_behind {before after : List Helper} (start : Nat)
    (accepted : acceptance? helper types = some tail)
    (others : ∀ other ∈ before, other.name ≠ helper.name) :
    choose? helper.name types start (before ++ helper :: after) =
      some (start + before.length, helper, tail) := by
  induction before generalizing start with
  | nil =>
    simp only [List.nil_append, choose?, if_true, accepted]
    rfl
  | cons other before ih =>
    obtain ⟨first, others⟩ := List.forall_mem_cons.1 others
    simp only [List.cons_append, choose?, if_neg first, ih (start + 1) others, List.length_cons]
    rw [Nat.add_assoc, Nat.add_comm 1]

/-! ### Calls -/

theorem fixedArgs_values {params : List Ty} {ps : List Pending} {typed : List Typed}
    (paired : ps.length = typed.length) :
    fixedArgs scopes params (ps.zip (typed.map some)) =
      .ok ((typed.take params.length).map fun t => .value t.1) := by
  induction params generalizing ps typed with
  | nil => rfl
  | cons param params ih =>
    cases typed with
    | nil =>
      rw [List.length_eq_zero_iff.1 paired]
      rfl
    | cons t typed =>
      obtain ⟨p, ps, rfl⟩ := List.exists_cons_of_length_eq_add_one paired
      simp only [List.map_cons, List.zip_cons_cons, fixedArgs, ih (Nat.succ.inj paired)]
      rfl

theorem compile_call {args : List Expr} {typed : List Typed} {index : Nat} (pos : Nat)
    (other : name ≠ "iif")
    (each : List.Forall₂ (fun e t => e.compile schema scopes = .ok t) args typed)
    (chosen : choose? name (typed.map fun t => some t.2) 0 schema.helpers =
      some (index, helper, tail)) :
    (Expr.call pos name (args.map .plain)).compile schema scopes =
      .ok (.helper index (((typed.take helper.params.length).map fun t => .value t.1) ++
        packed tail ((typed.drop helper.params.length).map some)), helper.returns) := by
  have found : List.Forall₂ (FoundArg schema scopes) (args.map .plain) (typed.map some) :=
    List.forall₂_map_left_iff.2 (List.forall₂_map_right_iff.2 (each.imp fun _ _ => .plain))
  have types : (typed.map some).map (·.map Prod.snd) = typed.map fun t => some t.2 := List.map_map
  have paired : ((args.map Arg.plain).map (pendingArg schema)).length = typed.length := by
    rw [List.length_map, List.length_map, each.length_eq]
  rw [← types] at chosen
  rw [List.map_drop]
  exact compile_chosen pos other found chosen (fixedArgs_values paired)

/-- Fixed arguments of just the types in the table, and further ones behind them. -/
theorem compile_further {lead further : List Expr} {leads rest : List Typed} {index : Nat}
    (pos : Nat) (other : helper.name ≠ "iif")
    (leading : List.Forall₂ (fun e t => e.compile schema scopes = .ok t) lead leads)
    (params : leads.map Prod.snd = helper.params)
    (each : List.Forall₂ (fun e t => e.compile schema scopes = .ok t) further rest)
    (chosen : choose? helper.name (helper.params.map some ++ rest.map fun t => some t.2) 0
      schema.helpers = some (index, helper, tail)) :
    (Expr.call pos helper.name ((lead ++ further).map .plain)).compile schema scopes =
      .ok (.helper index (leads.map (fun t => .value t.1) ++ packed tail (rest.map some)),
        helper.returns) := by
  have length : leads.length = helper.params.length := by rw [← params, List.length_map]
  have types : (leads ++ rest).map (fun t => some t.2) =
      helper.params.map some ++ rest.map fun t => some t.2 := by
    rw [List.map_append, ← params, List.map_map]
    rfl
  rw [← types] at chosen
  have compiled := compile_call pos other (List.rel_append leading each) chosen
  rwa [List.take_left' length, List.drop_left' length] at compiled

end Typing

/-! ## The table -/

namespace Helper

open Typing (fits acceptance? choose?)

/-- What the helper answers depends on the item and on what it is passed, but not on the session. -/
def IsPlain (helper : Helper) : Prop :=
  ∀ it args, ∃ answer, ∀ s, (helper.call it args).run.run s = (answer, s)

theorem run_reading {α : Type} (read : ReadArgs α) (f : Item → α → Value) (it : Item)
    (args : List Argument) :
    ∃ answer, ∀ s, (reading read (fun it a => pure (f it a)) it args).run.run s = (answer, s) := by
  unfold reading
  cases read.run' args with
  | ok a => exact ⟨_, fun s => rfl⟩
  | error fault => exact ⟨_, fun s => rfl⟩

theorem variadic_isPlain : ∀ helper ∈ standard, helper.variadic.isSome → helper.IsPlain := by
  simp only [standard, List.forall_mem_cons, Option.isSome_none, Option.isSome_some,
    Bool.false_eq_true, false_imp_iff, true_imp_iff, true_and]
  exact ⟨run_reading _ _, run_reading _ _, run_reading _ _, run_reading _ _, List.forall_mem_nil _⟩

theorem variadic_takes : ∀ helper ∈ standard, helper.variadic.isSome →
    helper.variadic = some (.scalar .text) ∧ (∀ ty ∈ helper.params, fits ty (some ty)) ∧
      helper.name ≠ "iif" := by decide

theorem variadic_alone :
    standard.Pairwise fun other helper => helper.variadic.isSome → other.name ≠ helper.name := by
  decide

/-- The helper is number `index` of the table, and the one that is called if its parameters are
given arguments of just their types. -/
structure ChosenAt (index : Nat) (helper : Helper) : Prop where
  found : standard[index]? = some helper
  chosen : ∀ types tail, acceptance? { helper with params := [] } types = some tail →
    choose? helper.name (helper.params.map some ++ types) 0 standard = some (index, helper, tail)

theorem exists_chosenAt {helper : Helper} (known : helper ∈ standard)
    (variadic : helper.variadic.isSome) : ∃ index, helper.ChosenAt index := by
  obtain ⟨before, after, split⟩ := List.append_of_mem known
  have alone := variadic_alone
  rw [split] at alone
  have others : ∀ other ∈ before, other.name ≠ helper.name := fun other mem =>
    (List.pairwise_append.1 alone).2.2 other mem helper List.mem_cons_self variadic
  refine ⟨0 + before.length, ?_, fun types tail accepted => ?_⟩
  · rw [split, Nat.zero_add, List.getElem?_append_right (Nat.le_refl _), Nat.sub_self]
    rfl
  · have fit := (variadic_takes helper known variadic).2.1
    rw [split]
    apply Typing.choose?_behind
    · exact (Typing.acceptance?_append fit).trans accepted
    · exact others

end Helper

/-! ## Calls of helpers in the table -/

/-- A call of the helper with the arguments is compiled to the term, wherever it stands. -/
def Helper.CompilesTo (helper : Helper) (scopes : Scopes) (args : List Expr) (t : Term) : Prop :=
  ∀ pos, (Expr.call pos helper.name (args.map .plain)).compile .standard scopes =
    .ok (t, helper.returns)

namespace Helper.ChosenAt

variable {helper : Helper} {index : Nat} {scopes : Scopes} {lead es : List Expr}
  {leads typed : List Typed} {elem : ElemTy} {list : Expr} {t : Term}
  (h : helper.ChosenAt index) (takes : helper.variadic = some elem) (other : helper.name ≠ "iif")
  (leading : List.Forall₂ (fun e t => e.compile .standard scopes = .ok t) lead leads)
  (params : leads.map Prod.snd = helper.params)

include h takes other leading params

theorem compilesTo_elements (nonempty : es ≠ [])
    (each : List.Forall₂ (fun e t => e.compile .standard scopes = .ok t) es typed)
    (same : ∀ t ∈ typed, t.2 = elem.toTy) :
    helper.CompilesTo scopes (lead ++ es) (.helper index
      (leads.map (fun t => .value t.1) ++ [.value (.array (typed.map Prod.fst))])) := by
  intro pos
  have several : typed ≠ [] := by
    rintro rfl
    exact nonempty (List.forall₂_nil_right_iff.1 each)
  have accepted : Typing.acceptance? { helper with params := [] } (typed.map fun t => some t.2) =
      some .asElements := by
    apply Typing.acceptance?_elements takes
    · exact mt List.map_eq_nil_iff.1 several
    · exact List.forall_mem_map.2 fun t mem => congrArg some (same t mem)
  have call := Typing.compile_further pos other leading params each (h.chosen _ _ accepted)
  simpa only [Typing.packed, List.filterMap_map, Function.comp_def, Option.map_some,
    List.filterMap_eq_map'] using call

theorem compilesTo_list (compiled : list.compile .standard scopes = .ok (t, .list elem)) :
    helper.CompilesTo scopes (lead ++ [list])
      (.helper index (leads.map (fun t => .value t.1) ++ [.value t])) := by
  intro pos
  have each : List.Forall₂ (fun e t => e.compile .standard scopes = .ok t) [list]
    [(t, .list elem)] := .cons compiled .nil
  have accepted := h.chosen _ _ (Typing.acceptance?_list takes)
  exact Typing.compile_further pos other leading params each accepted

end Helper.ChosenAt

/-! ## What calls come to -/

namespace Term

variable {it : Item} {locals : Locals} {s mid after : Session} {t : Term} {v : Value}
  {args more : List (HelperArg Term)} {index : Nat} {answer : Except Fault Value}

theorem evalArgs_append (helpers : List Helper) :
    evalArgs helpers it (args ++ more) locals = do
      let first ← evalArgs helpers it args locals
      return first ++ (← evalArgs helpers it more locals) := by
  induction args with
  | nil => simp [evalArgs]
  | cons arg args ih =>
    cases arg with
    | value t => simp [evalArgs, ih]
    | lambda height body => simp [evalArgs, ih]

theorem comesTo_helper {passed : List Argument} {helper : Helper}
    (first : (evalArgs Helper.standard it args locals).run.run s = (.ok passed, mid))
    (last : t.ComesTo it locals mid (.ok v, after))
    (found : Helper.standard[index]? = some helper)
    (answers : ∀ s, (helper.call it (passed ++ [.value v])).run.run s = (answer, s)) :
    (Term.helper index (args ++ [.value t])).ComesTo it locals s (answer, after) := by
  rw [comesTo_iff] at last ⊢
  rw [eval, evalArgs_append, bind_assoc, run_bind, first]
  simp only [evalArgs, bind_assoc, pure_bind]
  rw [run_bind, last]
  simp only [Eval.callHelper, found]
  exact answers after

theorem comesTo_helper_fault {fault : Fault}
    (first : (evalArgs Helper.standard it args locals).run.run s = (.error fault, mid)) :
    (Term.helper index (args ++ more)).ComesTo it locals s (.error fault, mid) := by
  rw [comesTo_iff, eval, evalArgs_append, bind_assoc, run_bind, first]

end Term

namespace Expr

/-- The expressions come to values, each in the session that the former one left. -/
inductive YieldEach (it : Item) (bindings : Bindings) : Session → List Expr → Session → Prop
  | nil {s : Session} : YieldEach it bindings s [] s
  | cons {s mid after : Session} {e : Expr} {es : List Expr} {ty : Ty} {v : Value} :
      e.Yields it bindings s ty v mid → YieldEach it bindings mid es after →
      YieldEach it bindings s (e :: es) after

variable {it : Item} {bindings : Bindings} {es : List Expr} {typed : List Typed}
  {s after : Session}

theorem yieldEach_of_run {passed : List Argument}
    (each : List.Forall₂ (fun e t => e.compile .standard bindings.scopes = .ok t) es typed)
    (run : (Term.evalArgs Helper.standard it (typed.map fun t => .value t.1)
      bindings.locals).run.run s = (.ok passed, after)) : YieldEach it bindings s es after := by
  induction each generalizing s passed with
  | nil =>
    cases run
    exact .nil
  | @cons e t es typed compiled _ ih =>
    rw [List.map_cons, Term.evalArgs, run_bind] at run
    split at run
    · rename_i v mid first
      rw [run_bind] at run
      split at run
      · rename_i others
        cases run
        exact .cons ⟨t.1, compiled, Term.comesTo_iff.2 first⟩ (ih others)
      · cases run
    · cases run

/-- A helper that does not depend on the session answers the same to the same value of its last
argument. A fault of an argument in front of it is the same anyway. -/
theorem comesTo_same {helper : Helper} {index : Nat} {t u : Term} (plain : helper.IsPlain)
    (found : Helper.standard[index]? = some helper)
    (each : List.Forall₂ (fun e t => e.compile .standard bindings.scopes = .ok t) es typed)
    (same : ∀ mid, YieldEach it bindings s es mid → ∃ v after after',
      t.ComesTo it bindings.locals mid (.ok v, after) ∧
      u.ComesTo it bindings.locals mid (.ok v, after')) :
    let fixed : List (HelperArg Term) := typed.map fun t => .value t.1
    ∃ answer after after',
      (Term.helper index (fixed ++ [.value t])).ComesTo it bindings.locals s (answer, after) ∧
      (Term.helper index (fixed ++ [.value u])).ComesTo it bindings.locals s (answer, after') := by
  intro fixed
  cases first : (Term.evalArgs Helper.standard it fixed bindings.locals).run.run s with
  | mk passed mid =>
    cases passed with
    | error fault =>
      exact ⟨_, _, _, Term.comesTo_helper_fault first, Term.comesTo_helper_fault first⟩
    | ok passed =>
      obtain ⟨v, after, after', left, right⟩ := same mid (yieldEach_of_run each first)
      obtain ⟨answer, answers⟩ := plain it (passed ++ [.value v])
      exact ⟨answer, after, after', Term.comesTo_helper first left found answers,
        Term.comesTo_helper first right found answers⟩

end Expr

namespace Schema

/-- The helpers that take any number of texts are called alike with the texts and with an array of
them. Any other list that comes to what the array comes to, behind the same fixed arguments, gives
the same answer or the same fault. -/
theorem arguments_as_array :
    (standard.helpers.filter (·.variadic.isSome)).map
        (fun helper => (helper.name, helper.params, helper.variadic)) =
      [("ContainsString", [.text], some (.scalar .text)),
        ("ContainsStringCase", [.text], some (.scalar .text)),
        ("HasMods", [], some (.scalar .text)), ("ModStats", [], some (.scalar .text))] ∧
    ∀ helper ∈ standard.helpers, helper.variadic.isSome →
      ∀ (scopes : Scopes) (lead es : List Expr) (place : Nat),
        List.Forall₂ (fun e ty => e.ty? standard scopes = some ty) lead helper.params →
        es ≠ [] → (∀ e ∈ es, e.ty? standard scopes = some .text) →
        ∃ c, helper.CompilesTo scopes (lead ++ es) c ∧
          helper.CompilesTo scopes (lead ++ [.array place es]) c ∧
          ∀ list : Expr, list.ty? standard scopes = some (.list (.scalar .text)) →
            ∃ c', helper.CompilesTo scopes (lead ++ [list]) c' ∧
              ∀ (it : Item) (bindings : Bindings) (s : Session), bindings.scopes = scopes →
                (∀ mid, Expr.YieldEach it bindings s lead mid → ∃ v after after',
                  (Expr.array place es).Yields it bindings mid (.list (.scalar .text)) v after ∧
                  list.Yields it bindings mid (.list (.scalar .text)) v after') →
                ∃ answer after after', c.ComesTo it bindings.locals s (answer, after) ∧
                  c'.ComesTo it bindings.locals s (answer, after') := by
  refine ⟨by rfl, fun helper known variadic scopes lead es place leading nonempty texts => ?_⟩
  obtain ⟨takes, -, other⟩ := Helper.variadic_takes helper known variadic
  obtain ⟨index, chosen⟩ := Helper.exists_chosenAt known variadic
  obtain ⟨leads, compiledLeads, params⟩ := Expr.exists_typed leading
  obtain ⟨typed, compiled, types⟩ := Expr.exists_typed (List.forall₂_map_right_iff.2
    (List.forall₂_same.2 texts))
  have same : ∀ t ∈ typed, t.2 = ElemTy.toTy (.scalar .text) := by
    intro t mem
    have inside : t.2 ∈ es.map fun _ => Ty.text := types ▸ List.mem_map_of_mem mem
    obtain ⟨_, -, found⟩ := List.mem_map.1 inside
    exact found.symm
  have array := Typing.compile_array place nonempty compiled same
  refine ⟨_, chosen.compilesTo_elements takes other compiledLeads params nonempty compiled same,
    chosen.compilesTo_list takes other compiledLeads params array, fun list isList => ?_⟩
  obtain ⟨u, compiledList⟩ := Expr.ty?_eq_some.1 isList
  refine ⟨_, chosen.compilesTo_list takes other compiledLeads params compiledList, ?_⟩
  rintro it bindings s rfl same
  have plain := Helper.variadic_isPlain helper known variadic
  apply Expr.comesTo_same plain chosen.found compiledLeads
  intro mid reached
  obtain ⟨v, after, after', ⟨_, arrayIs, left⟩, _, listIs, right⟩ := same mid reached
  cases array.symm.trans arrayIs
  cases compiledList.symm.trans listIs
  exact ⟨v, after, after', left, right⟩

/-- The texts that are looked for are those of the item's tags. -/
theorem arguments_as_array_tags :
    let it := Item.snapshot { (default : Attributes) with tags := ["map", "gem"] } none none
    let bindings : Bindings := [⟨⟨"t", .text, false⟩, .text "map device"⟩]
    let es : List Expr := [.text 0 "map", .text 0 "gem"]
    ∃ helper ∈ standard.helpers, helper.name = "ContainsString" ∧ ∃ c c',
      helper.CompilesTo bindings.scopes ([.name 0 "t"] ++ es) c ∧
      helper.CompilesTo bindings.scopes ([.name 0 "t"] ++ [.array 0 es]) c ∧
      helper.CompilesTo bindings.scopes ([.name 0 "t"] ++ [.name 0 "Tags"]) c' ∧
      ∃ answer after after', c.ComesTo it bindings.locals {} (answer, after) ∧
        c'.ComesTo it bindings.locals {} (answer, after') := by
  intro it bindings es
  have known : standard.helpers[4] ∈ standard.helpers := List.getElem_mem (by decide)
  have texts : ∀ e ∈ es, e.ty? standard bindings.scopes = some .text :=
    List.forall_mem_cons.2 ⟨rfl, List.forall_mem_singleton.2 rfl⟩
  obtain ⟨c, separate, together, others⟩ := arguments_as_array.2 _ known rfl bindings.scopes
    [.name 0 "t"] es 0 (.cons rfl .nil) nofun texts
  obtain ⟨c', listed, same⟩ := others (.name 0 "Tags") rfl
  refine ⟨_, known, rfl, c, c', separate, together, listed, same it bindings {} rfl ?_⟩
  intro mid _
  exact ⟨.list [.text "map", .text "gem"], _, _, ⟨_, rfl, rfl⟩, _, rfl, rfl⟩

end Schema

end LootFilter
