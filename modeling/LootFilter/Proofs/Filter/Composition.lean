import LootFilter.Proofs.Filter.Verdict
import LootFilter.Proofs.Script.Seam

/-!
# Scripts behind each other as rule sets

Two scripts with a blank line between them decide as the first one does, or, if no rule of it fires,
as the second one, whose lines have moved.
-/

namespace LootFilter

variable {it : Item} {rule : Rule} {rules : List Rule} {n : Nat}

/-! ## Rules further down -/

def Rule.moved (n : Nat) (rule : Rule) : Rule := { rule with line := rule.line + n }

def RuleFault.moved (n : Nat) (fault : RuleFault) : RuleFault := { fault with line := fault.line + n }

def DecidingRule.moved (n : Nat) (rule : DecidingRule) : DecidingRule :=
  { rule with line := rule.line + n }

def Outcome.moved (n : Nat) : Outcome → Outcome
  | silent => silent
  | fired => fired
  | faulted fault => faulted (fault.moved n)

def Verdict.moved (n : Nat) (verdict : Verdict) : Verdict where
  matched := verdict.matched
  deciding := verdict.deciding.map (.moved n)
  faults := verdict.faults.map (.moved n)

theorem Rule.outcome_moved : (rule.moved n).outcome it = (rule.outcome it).moved n := by
  unfold outcome run
  simp only [moved]
  cases rule.compiled with
  | error e => rfl
  | ok condition =>
    rcases ran : (Schema.standard.evaluate condition it).run.run {} with ⟨answer, s⟩
    simp only [StateT.run_bind, ran]
    match answer with
    | .ok false => rfl
    | .ok true => rfl
    | .error fault => rfl

theorem Verdict.ofOutcomes_moved : ofOutcomes it (rules.map (Rule.moved n)) =
    (ofOutcomes it rules).moved n := by
  induction rules with
  | nil => rfl
  | cons rule rules ih =>
    rw [List.map_cons]
    cases o : rule.outcome it with
    | silent =>
      have moved : (rule.moved n).outcome it = .silent := by rw [Rule.outcome_moved, o, Outcome.moved]
      rw [ofOutcomes_silent o, ofOutcomes_silent moved, ih]
    | fired =>
      have moved : (rule.moved n).outcome it = .fired := by rw [Rule.outcome_moved, o, Outcome.moved]
      rw [ofOutcomes_fired o, ofOutcomes_fired moved]
      rfl
    | faulted fault =>
      have moved : (rule.moved n).outcome it = .faulted (fault.moved n) := by
        rw [Rule.outcome_moved, o, Outcome.moved]
      rw [ofOutcomes_faulted o, ofOutcomes_faulted moved, ih]
      rfl

theorem Verdict.ofOutcomes_append (first second : List Rule) : ofOutcomes it (first ++ second) =
    if (ofOutcomes it first).deciding.isSome then ofOutcomes it first
    else { ofOutcomes it second with
      faults := (ofOutcomes it first).faults ++ (ofOutcomes it second).faults } := by
  induction first with
  | nil => rfl
  | cons rule first ih =>
    rw [List.cons_append]
    cases o : rule.outcome it with
    | silent => rw [ofOutcomes_silent o, ofOutcomes_silent o, ih]
    | fired => rw [ofOutcomes_fired o, ofOutcomes_fired o, Option.isSome_some, if_pos rfl]
    | faulted fault =>
      rw [ofOutcomes_faulted o, ofOutcomes_faulted o, ih]
      split <;> rfl

/-! ## Loading -/

namespace Session

def logged (s : Session) (events : List Event) : Session := { s with log := s.log ++ events }

theorem logged_nil (s : Session) : s.logged [] = s := by rw [logged, List.append_nil]

theorem logged_append (s : Session) (events later : List Event) :
    s.logged (events ++ later) = (s.logged events).logged later := by
  rw [logged, ← List.append_assoc]
  rfl

end Session

namespace Rule

def rejection? (rule : Rule) : Option Event :=
  rule.error?.map fun error => .ruleRejected rule.line rule.raw error

theorem ofSection_run (section' : Section) (s : Session) : (ofSection section').run s =
    (compileSection section', s.logged (compileSection section').rejection?.toList) := by
  unfold ofSection rejection?
  dsimp only
  cases (compileSection section').error? with
  | some error => rfl
  | none =>
    rw [Option.map_none, Option.toList_none, Session.logged_nil]
    rfl

end Rule

namespace RuleSet

theorem mapM_ofSection (sections : List Section) (s : Session) :
    let rules := sections.map Rule.compileSection
    (sections.mapM Rule.ofSection).run s =
      (rules, s.logged (rules.filterMap Rule.rejection?)) := by
  induction sections generalizing s with
  | nil => exact Prod.ext rfl s.logged_nil.symm
  | cons section' sections ih =>
    rw [List.mapM_cons, StateT.run_bind, Rule.ofSection_run]
    change (sections.mapM Rule.ofSection >>= _).run (s.logged _) = _
    rw [StateT.run_bind, ih, List.map_cons, List.filterMap_cons]
    cases (Rule.compileSection section').rejection? with
    | none => exact Prod.ext rfl (s.logged_append [] _).symm
    | some event => exact Prod.ext rfl (s.logged_append [event] _).symm

theorem ofSections_run (source : String) (sections : List Section) (s : Session) :
    let set : RuleSet := ⟨Text.baseName source, sections.map Rule.compileSection⟩
    (ofSections source sections).run s =
      (set, s.logged (set.rules.filterMap Rule.rejection? ++
        [.filterLoaded set.name set.size set.compileErrors.length])) := by
  intro set
  unfold ofSections
  rw [StateT.run_bind, mapM_ofSection, Session.logged_append]
  rfl

theorem ofScript_value (script : String) (s : Session) : ((ofScript script).run s).1 =
    ⟨"memory", (sectionsOfText script).map Rule.compileSection⟩ := by
  have named : Text.baseName "memory" = "memory" := by decide
  rw [ofScript, ofSections_run, named]

theorem compileErrors_append (name : String) (first second : List Rule) :
    compileErrors ⟨name, first ++ second⟩ =
      compileErrors ⟨name, first⟩ ++ compileErrors ⟨name, second⟩ :=
  List.filterMap_append ..

theorem compileErrors_moved (name : String) : compileErrors ⟨name, rules.map (Rule.moved n)⟩ =
    (compileErrors ⟨name, rules⟩).map fun (line, e) => (line + n, e) := by
  simp only [compileErrors, List.filterMap_map, List.map_filterMap]
  refine List.filterMap_congr fun rule _ => ?_
  change (rule.error?.map _) = (rule.error?.map _).map _
  rw [Option.map_map]
  rfl

/-- A script, a blank line, and another script: on every snapshot the whole decides as the first
script does if a rule of that fires, and else as the second one, on lines that have moved, with the
faults of both. So are the rules that do not compile those of both. -/
theorem ofScript_joined (first second : String) (ending : first.toList.getLast? ≠ some '\r')
    (attributes : Attributes) (player : Option Player) (prices : Option PriceSource)
    (ops : List Operation) (debug : Bool) (s : Session) :
    let moved := first.toList.count '\n' + 2
    let loaded (script : String) : RuleSet := ((ofScript script).run s).1
    let verdict (script : String) : Verdict :=
      verdictAfter ops (.snapshot attributes player prices) debug (loaded script)
    (loaded (first ++ "\n\n" ++ second)).compileErrors = (loaded first).compileErrors ++
        (loaded second).compileErrors.map (fun (line, e) => (line + moved, e)) ∧
      ((∀ rule ∈ (loaded first).rules ++ (loaded second).rules, ¬rule.AsksAboutLists) →
        verdict (first ++ "\n\n" ++ second) =
          if (verdict first).deciding.isSome then verdict first
          else { (verdict second).moved moved with
            faults := (verdict first).faults ++ ((verdict second).moved moved).faults }) := by
  intro moved loaded verdict
  have value (script : String) : loaded script =
      ⟨"memory", (sectionsOfText script).map Rule.compileSection⟩ := ofScript_value script s
  have joined : loaded (first ++ "\n\n" ++ second) =
      ⟨"memory", (loaded first).rules ++ (loaded second).rules.map (Rule.moved moved)⟩ := by
    rw [value, value, value, sectionsOfText_seam second ending, List.map_append, List.map_map,
      List.map_map]
    rfl
  refine ⟨?_, fun lists => ?_⟩
  · rw [joined, compileErrors_append, compileErrors_moved]
    rw [value first, value second]
  · have subject : (Item.snapshot attributes player prices).place = .subject := rfl
    have built (script : String) : ∀ rule ∈ (loaded script).rules,
        rule.compiled = Schema.standard.compile rule.text := by
      rw [value]
      intro rule mem
      obtain ⟨s, -, rfl⟩ := List.mem_map.1 mem
      rfl
    obtain ⟨inFirst, inSecond⟩ := List.forall_mem_append.1 lists
    have plainFirst : ∀ rule ∈ (loaded first).rules, rule.IsPlain := fun rule mem =>
      ⟨built first rule mem, inFirst rule mem⟩
    have plainSecond : ∀ rule ∈ (loaded second).rules, rule.IsPlain := fun rule mem =>
      ⟨built second rule mem, inSecond rule mem⟩
    have plainMoved : ∀ rule ∈ (loaded second).rules.map (Rule.moved moved), rule.IsPlain := by
      refine List.forall_mem_map.2 fun rule mem => ?_
      exact ⟨(plainSecond rule mem).built, (plainSecond rule mem).lists⟩
    have plain : ∀ rule ∈ (loaded (first ++ "\n\n" ++ second)).rules, rule.IsPlain := by
      rw [joined]
      exact List.forall_mem_append.2 ⟨plainFirst, plainMoved⟩
    have ofFirst : verdict first = .ofOutcomes _ _ := verdictAfter_eq subject plainFirst debug
    have ofSecond : verdict second = .ofOutcomes _ _ := verdictAfter_eq subject plainSecond debug
    have ofWhole : verdict (first ++ "\n\n" ++ second) = .ofOutcomes _ _ :=
      verdictAfter_eq subject plain debug
    rw [ofWhole, joined, Verdict.ofOutcomes_append, Verdict.ofOutcomes_moved, ofFirst, ofSecond]

/-- The first script has a comment and a rule that does not compile, the second one a negated rule,
which decides on line four of the whole. -/
theorem ofScript_joined_negated :
    let loaded (script : String) : RuleSet := ((ofScript script).run {}).1
    "// old\n(".toList.getLast? ≠ some '\r' ∧
      (∀ rule ∈ (loaded "// old\n(").rules ++ (loaded "^true").rules, ¬rule.AsksAboutLists) ∧
      (verdictAfter [] (.snapshot default none none) false
        (loaded ("// old\n(" ++ "\n\n" ++ "^true"))).deciding = some ⟨4, "^true", true⟩ := by
  intro loaded
  have ending : "// old\n(".toList.getLast? ≠ some '\r' := by decide
  have lists : ∀ rule ∈ (loaded "// old\n(").rules ++ (loaded "^true").rules,
      ¬rule.AsksAboutLists := by
    have first : sectionsOfText "// old\n(" = [⟨2, false, "(", "("⟩] := by decide +kernel
    have second : sectionsOfText "^true" = [⟨1, true, "true", "^true"⟩] := by decide +kernel
    have rejected : (Rule.compileSection ⟨2, false, "(", "("⟩).IsPlain :=
      Rule.isPlain_of_error (by decide +kernel)
    have constant : (Rule.compileSection ⟨1, true, "true", "^true"⟩).IsPlain :=
      Rule.isPlain_of_constant (by decide +kernel)
    rw [show loaded _ = _ from ofScript_value _ _, show loaded _ = _ from ofScript_value _ _, first,
      second]
    exact List.forall_mem_cons.2 ⟨rejected.lists, List.forall_mem_singleton.2 constant.lists⟩
  have decided := (ofScript_joined "// old\n(" "^true" ending default none none [] false {}).2 lists
  refine ⟨ending, lists, (congrArg Verdict.deciding decided).trans ?_⟩
  decide +kernel

end RuleSet

end LootFilter
