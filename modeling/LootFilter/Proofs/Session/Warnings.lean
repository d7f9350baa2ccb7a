import LootFilter.Proofs.Session.History

/-!
# Warnings about values

Whatever is done with an item, only one kind of event can come up on the way: the warning that
nobody can tell a value. Every item of the family is warned about once, when its value is found.
-/

namespace LootFilter

def Event.isWarning : Event → Bool
  | unpriced _ => true
  | _ => false

namespace Item

variable {root it other : Item}

def IsUntold (it : Item) : Prop := (it.prices.bind fun price => price it.attributes) = none

theorem warnings_told (told : ¬it.IsUntold) : it.warnings = [] := by
  unfold warnings
  cases price : it.prices.bind fun price => price it.attributes with
  | some x => rfl
  | none => exact (told price).elim

theorem warnings_untold (untold : it.IsUntold) : it.warnings = [.unpriced it.baseName] := by
  rw [warnings, show it.prices.bind _ = none from untold]

theorem Family.trans (h : root.Family it) (h' : it.Family other) : root.Family other := by
  induction h' with
  | self => exact h
  | carried known owned =>
    rcases h.eq_or_isBare with rfl | ⟨unknown, -⟩
    · exact .carried known owned
    · rw [unknown] at known
      cases known
  | socketed _ socketed ih => exact .socketed ih socketed

theorem Family.within (h : root.Family it) {r : Record} (within : r.Within it) :
    r.Within root := by
  obtain ⟨kind, subject⟩ := r
  cases kind with
  | item | part => exact h.trans within
  | modifier => trivial
  | player =>
    rcases h.eq_or_isBare with rfl | ⟨unknown, -⟩
    · exact within
    · exact .inr (within.elim (fun same => same.trans unknown) id)

theorem Family.withinMods (h : root.Family it) {mods : Mods} (within : mods.Within it) :
    mods.Within root := by
  cases mods with
  | partition owner p => exact h.trans within
  | picked ms => trivial

end Item

namespace Session

variable {root it other : Item} {s mid next : Session} {memo : Memo} {own own' : List Event}

def isPriced (s : Session) (it : Item) : Bool := (s.memo it).price.isSome

/-- What was reported between two sessions, in which values may have been found. There is one
warning for each item of the family whose value was found, but not told. -/
structure Accounts (root : Item) (s next : Session) (events : List Event) (items : List Item) :
    Prop where
  log : next.log = s.log ++ events
  warnings : events.filter Event.isWarning = items.map fun it => .unpriced it.baseName
  nodup : items.Nodup
  mem_iff : ∀ it, it ∈ items ↔
    root.Family it ∧ it.IsUntold ∧ s.isPriced it = false ∧ next.isPriced it
  stays : ∀ it, root.Family it → s.isPriced it → next.isPriced it

/-- Whether the events between two sessions are `own`, and warnings. -/
def Reports (root : Item) (s : Session) (own : List Event) (next : Session) : Prop :=
  ∃ events items, Accounts root s next events items ∧ events.filter (!·.isWarning) = own

namespace Reports

/-- The values that are kept have not changed. -/
theorem of_prices (log : next.log = s.log ++ own) (plain : ∀ event ∈ own, ¬event.isWarning)
    (prices : ∀ it, root.Family it → next.isPriced it = s.isPriced it) :
    Reports root s own next := by
  refine ⟨own, [], ⟨log, List.filter_eq_nil_iff.2 plain, .nil, fun it => ?_, ?_⟩, ?_⟩
  · constructor
    · nofun
    · rintro ⟨family, -, before, after⟩
      rw [prices it family, before] at after
      cases after
  · exact fun it family kept => (prices it family).trans kept
  · exact List.filter_eq_self.2 fun event mem => by simpa using plain event mem

theorem refl : Reports root s [] s :=
  of_prices (List.append_nil _).symm (fun _ mem => nomatch mem) fun _ _ => rfl

theorem trans (first : Reports root s own mid) (second : Reports root mid own' next) :
    Reports root s (own ++ own') next := by
  obtain ⟨events, items, before, rfl⟩ := first
  obtain ⟨events', items', after, rfl⟩ := second
  refine ⟨events ++ events', items ++ items', ⟨?_, ?_, ?_, fun it => ?_, ?_⟩, List.filter_append ..⟩
  · rw [after.log, before.log, List.append_assoc]
  · rw [List.filter_append, List.map_append, before.warnings, after.warnings]
  · refine List.nodup_append.2 ⟨before.nodup, after.nodup, ?_⟩
    rintro it mem _ mem' rfl
    obtain ⟨-, -, -, kept⟩ := (before.mem_iff it).1 mem
    obtain ⟨-, -, unknown, -⟩ := (after.mem_iff it).1 mem'
    rw [unknown] at kept
    cases kept
  · rw [List.mem_append, before.mem_iff, after.mem_iff]
    constructor
    · rintro (⟨family, untold, unknown, kept⟩ | ⟨family, untold, unknown, kept⟩)
      · exact ⟨family, untold, unknown, after.stays it family kept⟩
      · refine ⟨family, untold, ?_, kept⟩
        exact Bool.eq_false_iff.2 fun known => by
          simp [before.stays it family known] at unknown
    · rintro ⟨family, untold, unknown, kept⟩
      cases half : mid.isPriced it with
      | true => exact .inl ⟨family, untold, unknown, rfl⟩
      | false => exact .inr ⟨family, untold, rfl, kept⟩
  · exact fun it family kept => after.stays it family (before.stays it family kept)

theorem report (event : Event) (plain : ¬event.isWarning) :
    Reports root s [event] ((Session.report event).run s).2 :=
  of_prices rfl (List.forall_mem_singleton.2 plain) fun _ _ => rfl

theorem note (request : Request) : Reports root s [] ((Session.note request).run s).2 :=
  of_prices (List.append_nil _).symm (fun _ mem => nomatch mem) fun _ _ => rfl

theorem of_found (family : root.Family it) (unknown : s.isPriced it = false)
    (log : next.log = s.log ++ it.warnings) (priced_iff : ∀ other, root.Family other →
      (next.isPriced other ↔ other = it ∨ s.isPriced other)) : Reports root s [] next := by
  have stays (other : Item) (family' : root.Family other) (kept : s.isPriced other) :=
    (priced_iff other family').2 (.inr kept)
  have found_iff {other : Item} (family' : root.Family other) :
      s.isPriced other = false ∧ next.isPriced other ↔ other = it := by
    rw [priced_iff other family']
    constructor
    · rintro ⟨before, new | known⟩
      · exact new
      · rw [before] at known
        cases known
    · rintro rfl
      exact ⟨unknown, .inl rfl⟩
  by_cases untold : it.IsUntold
  · have warned := Item.warnings_untold untold
    refine ⟨_, [it], ⟨log, ?_, List.pairwise_singleton _ it, fun other => ?_, stays⟩, ?_⟩
    · rw [warned]
      rfl
    · rw [List.mem_singleton]
      constructor
      · rintro rfl
        exact ⟨family, untold, (found_iff family).2 rfl⟩
      · rintro ⟨family', -, new⟩
        exact (found_iff family').1 new
    · rw [warned]
      rfl
  · have silent := Item.warnings_told untold
    refine ⟨_, [], ⟨log, ?_, .nil, fun other => ?_, stays⟩, ?_⟩
    · rw [silent]
      rfl
    · refine iff_of_false List.not_mem_nil ?_
      rintro ⟨family', untold', new⟩
      obtain rfl := (found_iff family').1 new
      exact untold untold'
    · rw [silent]
      rfl

section steps

variable (subject : root.place = .subject) (family : root.Family it)

include subject family

theorem setMemo (same : memo.price = (s.memo it).price) : Reports root s [] (s.setMemo it memo) := by
  refine of_prices (List.append_nil _).symm (fun _ mem => nomatch mem) fun other family' => ?_
  unfold isPriced
  by_cases place : other.place = it.place
  · obtain rfl := Item.Family.eq_of_place subject family' family place
    rw [memo_setMemo, same]
  · rw [memo_setMemo_of_ne place]

theorem askTags (query : TagQuery) : Reports root s [] ((Session.askTags it query).run s).2 := by
  cases found : (s.memo it).tags.lookup query.key with
  | some b =>
    rw [TagQuery.askTags_hit found]
    exact refl
  | none =>
    rw [TagQuery.askTags_miss found]
    exact setMemo subject family rfl

theorem sumPartition (p : Partition) : Reports root s [] ((Session.sumPartition it p).run s).2 :=
  setMemo subject family rfl

theorem isPriced_setMemo (known : memo.price.isSome) (family' : root.Family other) :
    (s.setMemo it memo).isPriced other ↔ other = it ∨ s.isPriced other := by
  unfold isPriced
  by_cases place : other.place = it.place
  · obtain rfl := Item.Family.eq_of_place subject family' family place
    rw [memo_setMemo]
    exact iff_of_true known (.inl rfl)
  · rw [memo_setMemo_of_ne place]
    exact (or_iff_right fun same => place (congrArg Item.place same)).symm

theorem estimateValue : Reports root s [] ((Session.estimateValue it).run s).2 := by
  cases found : (s.memo it).price with
  | some x =>
    rw [estimateValue_hit found]
    exact refl
  | none =>
    have unknown : s.isPriced it = false := by rw [isPriced, found, Option.isSome_none]
    rw [estimateValue_miss found]
    refine of_found family unknown rfl fun other family' => ?_
    exact isPriced_setMemo subject family rfl family'

end steps

/-! ## Asking -/

section asking

variable (subject : root.place = .subject)

include subject

theorem reading {α : Type} {ty : Ty} {a : α} {reading : Reading α ty}
    (stays : reading.Stays root a) : Reports root s [] ((reading.run a).run s).2 := by
  cases reading with
  | allStats f => exact sumPartition subject stays .itemMods
  | price f => exact estimateValue subject stays
  | _ => exact refl

theorem read {r : Record} {field : RecordField r.kind.Subject} (within : r.Within root)
    (mem : field ∈ r.kind.fields) : Reports root s [] ((r.read field).run s).2 :=
  (note _).trans (reading subject (Record.fields_stay within field mem))

theorem sumMods {mods : Mods} (within : mods.Within root) :
    Reports root s [] ((Session.sumMods mods).run s).2 := by
  cases mods with
  | partition it p => exact (note _).trans (sumPartition subject within p)
  | picked ms => exact note _

end asking

end Reports

end Session

namespace Conduct

variable {C : Conduct} {α : Type} {root : Item} {s : Session}

section

variable (subject : root.place = .subject) (family : root.Family C.root)

include subject family

theorem Allows.reports {e : SessionM α} (allowed : C.Allows e) :
    s.Reports root [] (e.run s).2 := by
  cases allowed with
  | tags within _ => exact .askTags subject (family.trans within) _
  | read within mem => exact .read subject (family.within within) mem
  | sum within => exact .sumMods subject (family.withinMods within)
  | display v => exact .of_prices (List.append_nil _).symm (fun _ mem => nomatch mem) fun _ _ => rfl

/-- An evaluation reports only warnings. -/
theorem Admits.reports {e : EvalM α} {P : α → Prop} (h : C.Admits e P) :
    s.Reports root [] (e.run.run s).2 :=
  h.preserves (fun allowed _ before => before.trans (allowed.reports subject family)) .refl

end

end Conduct

/-- Asking something of an item of the family reports only warnings. -/
theorem Operation.run_reports {root it : Item} (subject : root.place = .subject)
    (family : root.Family it) (op : Operation) (s : Session) :
    s.Reports root [] ((op.run it).run s).2 := by
  cases op with
  | tags query => exact .askTags subject family query
  | stats p => exact .sumPartition subject family p
  | itemStats => exact .sumPartition subject family .itemMods
  | value => exact .estimateValue subject family
  | rule condition => exact (admits_condition condition it).reports subject family

end LootFilter
