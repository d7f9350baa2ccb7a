import LootFilter.Filter.RuleSet
import LootFilter.Proofs.Session.History

/-!
# Verdicts from outcomes

Rules share what is kept with an item, but a rule that asks about no lists of tags has the outcome
that it has alone on a fresh item. So the verdict of a rule set is read off these outcomes, rule by
rule, and rules that do not decide can come and go.
-/

namespace LootFilter

namespace Outcome

def fires : Outcome → Bool
  | fired => true
  | _ => false

def fault? : Outcome → Option RuleFault
  | faulted fault => some fault
  | _ => none

end Outcome

def Term.isLiteral : Term → Bool
  | literal _ => true
  | _ => false

namespace Rule

def AsksAboutLists (rule : Rule) : Prop :=
  ∃ condition : Term, rule.compiled = .ok condition ∧
    ∃ node : Term, node.IsIn condition ∧ node.Calls Helper.standard Helper.IsAboutTagList

/-- Whether the rule was compiled from its text, and cannot ask about lists of tags. -/
structure IsPlain (rule : Rule) : Prop where
  built : rule.compiled = Schema.standard.compile rule.text
  lists : ¬rule.AsksAboutLists

theorem isPlain_of_constant {s : Section}
    (constant : (Schema.standard.compile s.text).toOption.any Term.isLiteral) :
    (compileSection s).IsPlain where
  built := rfl
  lists := by
    rintro ⟨condition, compiled, node, inside, calls⟩
    rw [show Schema.standard.compile s.text = .ok condition from compiled] at constant
    cases condition with
    | literal l =>
      cases inside with
      | self => exact calls
      | part mem => cases mem
    | _ => cases constant

theorem isPlain_of_error {s : Section} (rejected : (Schema.standard.compile s.text).isOk = false) :
    (compileSection s).IsPlain where
  built := rfl
  lists := by
    rintro ⟨condition, compiled, -⟩
    rw [show Schema.standard.compile s.text = .ok condition from compiled] at rejected
    cases rejected

/-- What the rule does alone on an item with which nothing is kept yet. -/
def outcome (it : Item) (rule : Rule) : Outcome := ((rule.run it false).run {}).1

def decision (rule : Rule) : DecidingRule := ⟨rule.line, rule.raw, rule.negated⟩

end Rule

/-- The verdict by the first rule that fires, if every rule does what it does alone. -/
def Verdict.ofOutcomes (it : Item) (rules : List Rule) : Verdict where
  matched := (rules.find? fun rule => (rule.outcome it).fires).any fun rule => !rule.negated
  deciding := (rules.find? fun rule => (rule.outcome it).fires).map Rule.decision
  faults :=
    (rules.takeWhile fun rule => !(rule.outcome it).fires).filterMap fun rule =>
      (rule.outcome it).fault?

/-! ## One rule -/

namespace Rule

variable {it : Item} {rule : Rule}

theorem finds_report (root : Item) (event : Event) :
    Session.Finds root (Session.report event) () := fun _ h => ⟨rfl, h⟩

theorem run_finds_some (subject : it.place = .subject) (plain : rule.IsPlain) :
    ∃ o, ∀ debug, Session.Finds it (rule.run it debug) o := by
  unfold run
  cases compiled : rule.compiled with
  | error e => exact ⟨.silent, fun _ => .pure _⟩
  | ok condition =>
    have accepted : Schema.standard.compile rule.text = .ok condition := plain.built ▸ compiled
    have admits := Schema.admits_evaluate Schema.standard_sound accepted it
    obtain ⟨answer, finds⟩ := admits.finds subject fun asks => plain.lists ⟨condition, compiled, asks⟩
    match answer with
    | .ok false => exact ⟨.silent, fun _ => finds.bind (.pure _)⟩
    | .ok true =>
      refine ⟨.fired, fun debug => finds.bind ?_⟩
      cases debug with
      | false => exact .pure _
      | true => exact (finds_report it _).bind (.pure _)
    | .error fault => exact ⟨_, fun _ => finds.bind ((finds_report it _).bind (.pure _))⟩

/-- Whatever was asked before, and whether or not it is reported, a plain rule has the outcome that
it has alone. -/
theorem run_finds (subject : it.place = .subject) (plain : rule.IsPlain) (debug : Bool) :
    Session.Finds it (rule.run it debug) (rule.outcome it) := by
  obtain ⟨o, finds⟩ := run_finds_some subject plain
  have alone : rule.outcome it = o :=
    (finds false {} (Session.faithful_of_memos fun _ => rfl)).1
  exact alone ▸ finds debug

theorem holds_finds (subject : it.place = .subject) (plain : rule.IsPlain) (debug : Bool) :
    Session.Finds it (rule.holds it debug) (rule.outcome it).fires := by
  refine (run_finds subject plain debug).bind ?_
  cases rule.outcome it with
  | _ => exact .pure _

end Rule

/-! ## Lists of rules -/

namespace Verdict

variable {it : Item} {rule : Rule} {rules : List Rule}

theorem ofOutcomes_fired (h : rule.outcome it = .fired) : ofOutcomes it (rule :: rules) =
    { matched := !rule.negated, deciding := some rule.decision } := by
  simp [ofOutcomes, h, Outcome.fires]

theorem ofOutcomes_silent (h : rule.outcome it = .silent) :
    ofOutcomes it (rule :: rules) = ofOutcomes it rules := by
  simp [ofOutcomes, h, Outcome.fires, Outcome.fault?]

theorem ofOutcomes_faulted {fault : RuleFault} (h : rule.outcome it = .faulted fault) :
    ofOutcomes it (rule :: rules) =
      { ofOutcomes it rules with faults := fault :: (ofOutcomes it rules).faults } := by
  simp [ofOutcomes, h, Outcome.fires, Outcome.fault?]

/-- A rule that fires hides the rules behind it. -/
theorem ofOutcomes_behind (fires : (rule.outcome it).fires) (front behind behind' : List Rule) :
    ofOutcomes it (front ++ rule :: behind) = ofOutcomes it (front ++ rule :: behind') := by
  simp [ofOutcomes, List.find?_append, List.takeWhile_append, fires]

/-- Without rules that do not fire, the same rule is the first one to fire, and the rules in front
of it are those that are left of the rules in front of it. -/
theorem ofOutcomes_kept (marked : List (Rule × Bool))
    (idle : ∀ entry ∈ marked, entry.2 = false → ¬(entry.1.outcome it).fires) :
    ofOutcomes it ((marked.filter Prod.snd).map Prod.fst) =
      { ofOutcomes it (marked.map Prod.fst) with
        faults := ((marked.takeWhile fun entry => !(entry.1.outcome it).fires).filter
          Prod.snd).filterMap fun entry => (entry.1.outcome it).fault? } := by
  induction marked with
  | nil => rfl
  | cons entry marked ih =>
    obtain ⟨rule, keep⟩ := entry
    obtain ⟨first, others⟩ := List.forall_mem_cons.1 idle
    have rest := ih others
    cases o : rule.outcome it with
    | fired =>
      obtain rfl : keep = true := by
        by_contra drop
        exact first (by simpa using drop) (by simp [o, Outcome.fires])
      simp [ofOutcomes_fired o, o, Outcome.fires]
    | silent =>
      cases keep <;> simp [ofOutcomes_silent o, o, Outcome.fires, Outcome.fault?, rest]
    | faulted fault =>
      cases keep <;> simp [ofOutcomes_faulted o, o, Outcome.fires, Outcome.fault?, rest]

theorem deciding_alone : (ofOutcomes it [rule]).deciding = some rule.decision ↔
    (rule.outcome it).fires := by
  cases fires : (rule.outcome it).fires <;> simp [ofOutcomes, fires]

end Verdict

namespace RuleSet

variable {it : Item} {rules : List Rule}

theorem tryRules_finds (subject : it.place = .subject) (plain : ∀ rule ∈ rules, rule.IsPlain)
    (debug : Bool) : Session.Finds it (tryRules it debug rules) (.ofOutcomes it rules) := by
  induction rules with
  | nil => exact .pure _
  | cons rule rules ih =>
    obtain ⟨first, others⟩ := List.forall_mem_cons.1 plain
    refine (rule.run_finds subject first debug).bind ?_
    cases o : rule.outcome it with
    | silent =>
      rw [Verdict.ofOutcomes_silent o]
      exact ih others
    | fired =>
      rw [Verdict.ofOutcomes_fired o]
      exact .pure _
    | faulted fault =>
      rw [Verdict.ofOutcomes_faulted o]
      exact (ih others).bind (.pure _)

/-- The verdict of rules on a snapshot of which `ops` were asked before. -/
def verdictAfter (ops : List Operation) (it : Item) (debug : Bool) (set : RuleSet) : Verdict :=
  ((set.decide it debug).run (Operation.after it ops {})).1

theorem verdictAfter_eq {ops : List Operation} {set : RuleSet} (subject : it.place = .subject)
    (plain : ∀ rule ∈ set.rules, rule.IsPlain) (debug : Bool) :
    verdictAfter ops it debug set = .ofOutcomes it set.rules :=
  (tryRules_finds subject plain debug _ (Operation.after_faithful subject)).1

/-- Whatever was asked of a snapshot before, and whether or not it is reported, plain rules decide
by the first one that fires alone. Rules that do not fire can be taken away, and with them go only
their own faults; what stands behind a rule that fires does not matter. A rule holds if it decides
the set that consists of it. -/
theorem decide_first (name : String) (attributes : Attributes) (player : Option Player)
    (prices : Option PriceSource) (ops : List Operation) (rules : List Rule)
    (plain : ∀ rule ∈ rules, rule.IsPlain) (debug : Bool) :
    let it := Item.snapshot attributes player prices
    let fires (rule : Rule) : Bool := (rule.outcome it).fires
    let verdict (rules : List Rule) : Verdict := verdictAfter ops it debug ⟨name, rules⟩
    ((verdict rules).matched = (rules.find? fires).any (!·.negated) ∧
      (verdict rules).deciding = (rules.find? fires).map Rule.decision ∧
      (verdict rules).faults =
        (rules.takeWhile (!fires ·)).filterMap fun rule => (rule.outcome it).fault?) ∧
    (∀ marked : List (Rule × Bool), marked.map Prod.fst = rules →
      (∀ entry ∈ marked, entry.2 = false → ¬fires entry.1) →
      verdict ((marked.filter Prod.snd).map Prod.fst) =
        { verdict rules with
          faults := ((marked.takeWhile (!fires ·.1)).filter Prod.snd).filterMap fun entry =>
            (entry.1.outcome it).fault? }) ∧
    (∀ front rule behind others, rules = front ++ rule :: behind → fires rule →
      (∀ other ∈ others, other.IsPlain) → verdict (front ++ rule :: others) = verdict rules) ∧
    ∀ rule ∈ rules, ((rule.holds it debug).run (Operation.after it ops {})).1 ↔
      (verdict [rule]).deciding = some rule.decision := by
  intro it fires verdict
  have subject : it.place = .subject := rfl
  have eq (rules : List Rule) (plain : ∀ rule ∈ rules, rule.IsPlain) :
      verdict rules = .ofOutcomes it rules := verdictAfter_eq subject plain debug
  refine ⟨?_, ?_, ?_, ?_⟩
  · rw [eq rules plain]
    exact ⟨rfl, rfl, rfl⟩
  · rintro marked rfl idle
    have kept : ∀ rule ∈ (marked.filter Prod.snd).map Prod.fst, rule.IsPlain := fun rule mem =>
      plain rule (List.map_subset _ (List.filter_subset_self _) mem)
    rw [eq _ kept, eq _ plain]
    exact Verdict.ofOutcomes_kept marked idle
  · rintro front rule behind others rfl fired alsoPlain
    obtain ⟨inFront, fromRule⟩ := List.forall_mem_append.1 plain
    obtain ⟨first, -⟩ := List.forall_mem_cons.1 fromRule
    have inserted : ∀ other ∈ front ++ rule :: others, other.IsPlain :=
      List.forall_mem_append.2 ⟨inFront, List.forall_mem_cons.2 ⟨first, alsoPlain⟩⟩
    rw [eq _ inserted, eq _ plain]
    exact Verdict.ofOutcomes_behind fired front others behind
  · intro rule mem
    have faithful : (Operation.after it ops {}).Faithful it := Operation.after_faithful subject
    have holds := (rule.holds_finds subject (plain rule mem) debug _ faithful).1
    rw [holds, eq [rule] (List.forall_mem_singleton.2 (plain rule mem))]
    exact Verdict.deciding_alone.symm

/-- A rule that does not compile, and a negated one behind it that fires and decides. -/
theorem decide_first_negated :
    let rules := [(⟨1, false, "(", "("⟩ : Section), ⟨3, true, "true", "^true"⟩].map Rule.compileSection
    (∀ rule ∈ rules, rule.IsPlain) ∧
      (verdictAfter [.itemStats] (.snapshot default none none) true ⟨"memory", rules⟩).deciding =
        some ⟨3, "^true", true⟩ := by
  intro rules
  have plain : ∀ rule ∈ rules, rule.IsPlain := by
    refine List.forall_mem_cons.2 ⟨?_, List.forall_mem_singleton.2 ?_⟩
    · exact Rule.isPlain_of_error (by decide +kernel)
    · exact Rule.isPlain_of_constant (by decide +kernel)
  have decided := (decide_first "memory" default none none [.itemStats] rules plain true).1.2.1
  refine ⟨plain, decided.trans ?_⟩
  decide +kernel

end RuleSet

end LootFilter
