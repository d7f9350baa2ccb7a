import LootFilter.Proofs.Filter.Composition
import LootFilter.Proofs.Session.Warnings

/-!
# What is reported of rule sets

What a log says about a rule set, and about its decisions, can be written down from the set and from
the verdicts, but for warnings about values. A rule that is run alone reports what the set reports
when it comes to the rule.
-/

namespace LootFilter

/-! ## Entries of a log -/

structure Event.Entry where
  level : Event.Level
  message : String
  details : List (String × String)

def Event.entry (event : Event) : Event.Entry := ⟨event.level, event.message, event.details⟩

def RuleFault.entry (fault : RuleFault) : Event.Entry where
  level := .error
  message := "evaluation error: " ++ fault.fault.message
  details := [("line", toString fault.line), ("rule", fault.raw), ("item", fault.item)]

def DecidingRule.entry (it : Item) (rule : DecidingRule) : Event.Entry where
  level := .debug
  message := "rule matched"
  details := [("line", toString rule.line), ("rule", rule.raw), ("item", it.describe)]

/-- What is logged of the decision on an item. -/
def Verdict.entries (it : Item) (debug : Bool) (verdict : Verdict) : List Event.Entry :=
  verdict.faults.map RuleFault.entry ++
    if debug then (verdict.deciding.map (·.entry it)).toList else []

/-- What is logged of a rule that does not compile. -/
def Rule.entry (rule : Rule) (error : CompileError) : Event.Entry where
  level := .error
  message := "failed to compile rule: " ++ error.text
  details := [("line", toString rule.line), ("rule", rule.raw)]

namespace RuleSet

/-- The rules that do not compile, and why. -/
def failed (set : RuleSet) : List (Rule × CompileError) :=
  set.rules.filterMap fun rule => rule.error?.map fun error => (rule, error)

def loadedEntry (set : RuleSet) : Event.Entry where
  level := .info
  message := "processed filter"
  details :=
    [("source", set.name), ("rules", toString set.size),
      ("failed", toString set.compileErrors.length)]

/-- What is logged of loading the set. -/
def entries (set : RuleSet) : List Event.Entry :=
  (set.failed.map fun (rule, error) => rule.entry error) ++ [set.loadedEntry]

theorem compileErrors_eq (set : RuleSet) :
    set.compileErrors = set.failed.map fun (rule, error) => (rule.line, error) := by
  rw [compileErrors, failed, List.map_filterMap]
  refine List.filterMap_congr fun rule _ => ?_
  rw [Option.map_map]
  rfl

end RuleSet

/-! ## Loading -/

namespace RuleSet

/-- Whether the set was loaded between the sessions, and that is what was reported. -/
def Announced (s : Session) (set : RuleSet) (next : Session) : Prop :=
  ∃ events, next = s.logged events ∧ events.map Event.entry = set.entries

theorem entry_rejections (set : RuleSet) : (set.rules.filterMap Rule.rejection?).map Event.entry =
    set.failed.map fun (rule, error) => rule.entry error := by
  rw [failed, List.map_filterMap, List.map_filterMap]
  refine List.filterMap_congr fun rule _ => ?_
  rw [Rule.rejection?, Option.map_map, Option.map_map]
  rfl

theorem ofSections_announced (source : String) (sections : List Section) (s : Session) :
    Announced s ((ofSections source sections).run s).1 ((ofSections source sections).run s).2 := by
  rw [ofSections_run]
  refine ⟨_, rfl, ?_⟩
  rw [List.map_append, entry_rejections]
  rfl

theorem ofTexts_eq (source : String) (texts : List String) : ofTexts source texts =
    ofSections source ((texts.zipIdx 1).map fun (text, line) => ⟨line, false, text, text⟩) := by
  unfold ofTexts ofSections
  rw [List.mapM_map]
  rfl

end RuleSet

/-! ## Running rules -/

/-- Whether the rule was compiled from its text. -/
def Rule.IsBuilt (rule : Rule) : Prop := rule.compiled = Schema.standard.compile rule.text

namespace Rule

variable {root it : Item} {rule : Rule} {debug : Bool} {s : Session}

/-- What a run of the rule reports, apart from warnings. -/
def events (it : Item) (debug : Bool) (rule : Rule) : Outcome → List Event
  | .silent => []
  | .fired => if debug then [.ruleMatched rule.line rule.raw it.describe] else []
  | .faulted fault => [.ruleFaulted fault.line fault.raw fault.item fault.fault]

theorem entry_events {outcome : Outcome} : (rule.events it debug outcome).map Event.entry =
    outcome.fault?.toList.map RuleFault.entry ++
      if debug && outcome.fires then [rule.decision.entry it] else [] := by
  cases outcome with
  | silent => cases debug <;> rfl
  | fired => cases debug <;> rfl
  | faulted fault => cases debug <;> rfl

theorem run_reports (subject : root.place = .subject) (family : root.Family it)
    (built : rule.IsBuilt) (debug : Bool) (s : Session) :
    s.Reports root (rule.events it debug ((rule.run it debug).run s).1)
      ((rule.run it debug).run s).2 := by
  unfold run
  cases compiled : rule.compiled with
  | error e => exact .refl
  | ok condition =>
    have accepted : Schema.standard.compile rule.text = .ok condition := built ▸ compiled
    have evaluated := (Schema.admits_evaluate Schema.standard_sound accepted it).reports
      (s := s) subject family
    dsimp only
    rw [StateT.run_bind]
    generalize (Schema.standard.evaluate condition it).run.run s = run at evaluated ⊢
    obtain ⟨answer, next⟩ := run
    match answer with
    | .ok false => exact evaluated
    | .ok true =>
      cases debug with
      | false => exact evaluated
      | true => exact evaluated.trans (.report _ nofun)
    | .error fault => exact evaluated.trans (.report _ nofun)

theorem holds_run (rule : Rule) (it : Item) (debug : Bool) (s : Session) :
    (rule.holds it debug).run s =
      (((rule.run it debug).run s).1.fires, ((rule.run it debug).run s).2) := by
  unfold holds
  rw [StateT.run_bind]
  generalize (rule.run it debug).run s = run
  obtain ⟨outcome, next⟩ := run
  cases outcome <;> rfl

end Rule

/-! ## Trying rules -/

namespace RuleSet

variable {root it : Item} {rules : List Rule} {debug : Bool} {s : Session}

/-- The first rule decides, or the rules behind it do. -/
theorem tryRules_cons (rule : Rule) (rules : List Rule) (it : Item) (debug : Bool) (s : Session) :
    (tryRules it debug (rule :: rules)).run s =
      let first := (rule.run it debug).run s
      let later := (tryRules it debug (if first.1.fires then [] else rules)).run first.2
      ({ matched := if first.1.fires then !rule.negated else later.1.matched
         deciding := if first.1.fires then some rule.decision else later.1.deciding
         faults := first.1.fault?.toList ++ later.1.faults }, later.2) := by
  rw [tryRules, StateT.run_bind]
  generalize (rule.run it debug).run s = first
  obtain ⟨outcome, next⟩ := first
  cases outcome <;> rfl

/-- What rules report that are tried on an item of the family can be read off the verdict. -/
theorem tryRules_reports (subject : root.place = .subject) (family : root.Family it)
    (built : ∀ rule ∈ rules, rule.IsBuilt) (debug : Bool) (s : Session) :
    ∃ own, s.Reports root own ((tryRules it debug rules).run s).2 ∧
      own.map Event.entry = ((tryRules it debug rules).run s).1.entries it debug := by
  induction rules generalizing s with
  | nil =>
    refine ⟨[], .refl, ?_⟩
    cases debug <;> rfl
  | cons rule rules ih =>
    obtain ⟨first, others⟩ := List.forall_mem_cons.1 built
    have reports := rule.run_reports subject family first debug s
    rw [tryRules_cons]
    generalize (rule.run it debug).run s = run at reports ⊢
    obtain ⟨outcome, next⟩ := run
    obtain ⟨own, rest, entries⟩ := ih others next
    cases outcome with
    | silent => exact ⟨own, reports.trans rest, entries⟩
    | fired =>
      refine ⟨_, reports, ?_⟩
      cases debug <;> rfl
    | faulted fault =>
      refine ⟨_, reports.trans rest, ?_⟩
      rw [List.map_append, entries]
      rfl

theorem tryRules_append (front behind : List Rule) (it : Item) (debug : Bool) (s : Session) :
    (tryRules it debug (front ++ behind)).run s =
      let before := (tryRules it debug front).run s
      let later := (tryRules it debug behind).run before.2
      if before.1.deciding.isSome then before
      else ({ later.1 with faults := before.1.faults ++ later.1.faults }, later.2) := by
  induction front generalizing s with
  | nil => rfl
  | cons rule front ih =>
    rw [List.cons_append, tryRules_cons, tryRules_cons]
    generalize (rule.run it debug).run s = run
    obtain ⟨outcome, next⟩ := run
    cases outcome with
    | silent => exact ih next
    | fired => rfl
    | faulted fault =>
      let noting (run : Verdict × Session) : Verdict × Session :=
        ({ run.1 with faults := fault :: run.1.faults }, run.2)
      exact (congrArg noting (ih next)).trans (apply_ite noting _ _ _)

/-- Where no rule in front has fired, a rule that is run alone leaves the session as the set does that
comes to the rule, and reports the fault that the set notes of the rule, or that it fired. -/
theorem tryRules_reached (subject : it.place = .subject) {rule : Rule} (built : rule.IsBuilt)
    (front behind : List Rule) (debug : Bool) (s : Session) :
    let whole := (tryRules it debug (front ++ rule :: behind)).run s
    let before := (tryRules it debug front).run s
    let alone := (rule.holds it debug).run before.2
    let rest := (tryRules it debug (if alone.1 then [] else behind)).run alone.2
    before.1.deciding = none →
      whole.2 = rest.2 ∧
      whole.1.deciding = (if alone.1 then some rule.decision else rest.1.deciding) ∧
      ∃ own, before.2.Reports it own alone.2 ∧ ∃ fault : Option RuleFault,
        whole.1.faults = before.1.faults ++ fault.toList ++ rest.1.faults ∧
        own.map Event.entry = fault.toList.map RuleFault.entry ++
          if debug && alone.1 then [rule.decision.entry it] else [] := by
  intro whole before alone rest reached
  let first := (rule.run it debug).run before.2
  have reports := rule.run_reports subject .self built debug before.2
  have holds : alone = (first.1.fires, first.2) := rule.holds_run it debug before.2
  have remain : rest = (tryRules it debug (if first.1.fires then [] else behind)).run first.2 := by
    unfold rest
    rw [holds]
  have here := tryRules_cons rule behind it debug before.2
  dsimp only at here
  rw [← remain] at here
  have fallen : ¬before.1.deciding.isSome := by simp [reached]
  have apart := (tryRules_append front (rule :: behind) it debug s).trans (if_neg fallen)
  rw [here] at apart
  rw [show whole = _ from apart, holds]
  refine ⟨rfl, rfl, _, reports, first.1.fault?, (List.append_assoc ..).symm, Rule.entry_events⟩

end RuleSet

/-! ## The life of a snapshot -/

/-- What can be done with an item. -/
inductive Use where
  | ask (op : Operation)
  | holds (rule : Rule) (built : rule.IsBuilt) (debug : Bool)
  | decide (set : RuleSet) (built : ∀ rule ∈ set.rules, rule.IsBuilt) (debug : Bool)

namespace Use

variable {root it : Item}

def run (it : Item) (s : Session) : Use → Session
  | ask op => ((op.run it).run s).2
  | holds rule _ debug => ((rule.holds it debug).run s).2
  | decide set _ debug => ((set.decide it debug).run s).2

/-- The session after items of a family were used. -/
def after (uses : List ({ it // root.Family it } × Use)) (s : Session) : Session :=
  uses.foldl (fun s (it, use) => use.run it s) s

theorem run_reports (subject : root.place = .subject) (family : root.Family it) (use : Use)
    (s : Session) : ∃ own, s.Reports root own (use.run it s) := by
  cases use with
  | ask op => exact ⟨[], op.run_reports subject family s⟩
  | holds rule built debug =>
    rw [run, Rule.holds_run]
    exact ⟨_, rule.run_reports subject family built debug s⟩
  | decide set built debug =>
    obtain ⟨own, reports, -⟩ := RuleSet.tryRules_reports subject family built debug s
    exact ⟨own, reports⟩

theorem after_reports (subject : root.place = .subject)
    (uses : List ({ it // root.Family it } × Use)) (s : Session) :
    ∃ own, s.Reports root own (after uses s) := by
  induction uses generalizing s with
  | nil => exact ⟨[], .refl⟩
  | cons use uses ih =>
    obtain ⟨own, first⟩ := use.2.run_reports subject use.1.2 s
    obtain ⟨own', rest⟩ := ih (use.2.run use.1 s)
    exact ⟨own ++ own', first.trans rest⟩

end Use

namespace RuleSet

/-- Apart from warnings, a decision reports what its verdict says: one error for each fault, and then
the deciding rule, when that is to be reported. As long as a snapshot is used, it and the items that
can be reached from it are each warned about once at most, when their value is found and nobody can
tell it. Where no rule in front has fired, a rule that is run alone reports what the set reports that
comes to it, and leaves the session to the rules behind. Loading a set reports one error for each
rule that does not compile, and then the set. -/
theorem decide_reports (set : RuleSet) (built : ∀ rule ∈ set.rules, rule.IsBuilt)
    (attributes : Attributes) (player : Option Player) (prices : Option PriceSource) (debug : Bool)
    (s : Session) :
    let it := Item.snapshot attributes player prices
    let whole := (set.decide it debug).run s
    (∃ events, whole.2.log = s.log ++ events ∧
      (events.filter (!·.isWarning)).map Event.entry = whole.1.entries it debug) ∧
    (∀ uses : List ({ other // it.Family other } × Use),
      let next := Use.after uses s.withNewItems
      ∃ (events : List Event) (items : List Item), next.log = s.log ++ events ∧
        events.filter Event.isWarning = items.map (fun other => .unpriced other.baseName) ∧
        items.Nodup ∧
        ∀ other, other ∈ items ↔ it.Family other ∧ other.IsUntold ∧ next.isPriced other) ∧
    (∀ front rule behind, set.rules = front ++ rule :: behind →
      let before := (tryRules it debug front).run s
      let alone := (rule.holds it debug).run before.2
      let rest := (tryRules it debug (if alone.1 then [] else behind)).run alone.2
      before.1.deciding = none →
        whole.2 = rest.2 ∧
        whole.1.deciding = (if alone.1 then some rule.decision else rest.1.deciding) ∧
        ∃ events, alone.2.log = before.2.log ++ events ∧ ∃ fault : Option RuleFault,
          whole.1.faults = before.1.faults ++ fault.toList ++ rest.1.faults ∧
          (events.filter (!·.isWarning)).map Event.entry = fault.toList.map RuleFault.entry ++
            if debug && alone.1 then [rule.decision.entry it] else []) ∧
    (∀ loaded : RuleSet,
      loaded.compileErrors = loaded.failed.map fun (rule, error) => (rule.line, error)) ∧
    (∀ script, Announced s ((ofScript script).run s).1 ((ofScript script).run s).2) ∧
    (∀ source texts, Announced s ((ofTexts source texts).run s).1 ((ofTexts source texts).run s).2) ∧
    ∀ path bytes script, String.fromUTF8? bytes = some script →
      ∃ loaded next, (ofFile path (some bytes)).run s = (.ok loaded, next) ∧
        Announced s loaded next := by
  intro it whole
  have subject : it.place = .subject := rfl
  refine ⟨?_, fun uses => ?_, ?_, compileErrors_eq, fun script => ?_, fun source texts => ?_, ?_⟩
  · obtain ⟨_, ⟨events, _, accounts, rfl⟩, entries⟩ := tryRules_reports subject .self built debug s
    exact ⟨events, accounts.log, entries⟩
  · obtain ⟨_, events, items, accounts, -⟩ := Use.after_reports subject uses s.withNewItems
    refine ⟨events, items, accounts.log, accounts.warnings, accounts.nodup, fun other => ?_⟩
    rw [accounts.mem_iff]
    have fresh : s.withNewItems.isPriced other = false := rfl
    simp only [fresh, true_and]
  · intro front rule behind parts before alone rest reached
    have first := built rule (by simp [parts])
    have same : whole = (tryRules it debug (front ++ rule :: behind)).run s := by rw [← parts]; rfl
    have steps := tryRules_reached subject first front behind debug s reached
    rw [← same] at steps
    obtain ⟨session, deciding, _, ⟨events, _, accounts, rfl⟩, fault, faults, entries⟩ := steps
    exact ⟨session, deciding, events, accounts.log, fault, faults, entries⟩
  · exact ofSections_announced _ _ s
  · rw [ofTexts_eq]
    exact ofSections_announced _ _ s
  · intro path bytes script text
    refine ⟨_, _, ?_, ofSections_announced path (sectionsOfText script) s⟩
    unfold ofFile
    simp only [text]
    rfl

/-- A rule that does not compile, and a negated one behind it, which fires and is reported, in the set
and alone. -/
theorem decide_reports_negated :
    let failing := Rule.compileSection ⟨1, false, "(", "("⟩
    let deciding := Rule.compileSection ⟨3, true, "true", "^true"⟩
    let set : RuleSet := ⟨"memory", [failing, deciding]⟩
    let it := Item.snapshot default none none
    let entry := DecidingRule.entry it ⟨3, "^true", true⟩
    let before := (tryRules it true [failing]).run {}
    (∀ rule ∈ set.rules, rule.IsBuilt) ∧ before.1.deciding = none ∧
      (∃ events, ((set.decide it true).run {}).2.log = events ∧
        (events.filter (!·.isWarning)).map Event.entry = [entry]) ∧
      ∃ events, ((deciding.holds it true).run before.2).2.log = before.2.log ++ events ∧
        (events.filter (!·.isWarning)).map Event.entry = [entry] := by
  intro failing deciding set it entry before
  have built : ∀ rule ∈ set.rules, rule.IsBuilt :=
    List.forall_mem_cons.2 ⟨rfl, List.forall_mem_singleton.2 rfl⟩
  have reached : before.1.deciding = none := by decide +kernel
  have holds : ((deciding.holds it true).run before.2).1 = true := by decide +kernel
  have faults : ((set.decide it true).run {}).1.faults = [] := List.isEmpty_iff.1 (by decide +kernel)
  have decided : ((set.decide it true).run {}).1.deciding = some ⟨3, "^true", true⟩ := by
    decide +kernel
  obtain ⟨⟨events, log, entries⟩, -, apart, -⟩ := decide_reports set built default none none true {}
  obtain ⟨-, -, events', log', fault, faults', entries'⟩ := apart [failing] deciding [] rfl reached
  refine ⟨built, reached, ⟨events, log, ?_⟩, events', log', ?_⟩
  · rw [entries]
    unfold Verdict.entries
    rw [faults, decided]
    rfl
  · have unfaulted : fault.toList = [] := by
      rw [faults, eq_comm, List.append_eq_nil_iff, List.append_eq_nil_iff] at faults'
      exact faults'.1.2
    rw [entries', unfaulted, holds]
    rfl

end RuleSet

end LootFilter
