import LootFilter.Proofs.Language.Faults
import LootFilter.Proofs.Session.Kept

/-!
# Histories of a snapshot

A snapshot of an item is asked about its tags, its stats and its value, and rules are evaluated on
it, in any order. What was asked before shows in no answer, unless that is about lists of tags. What
is kept, and how often the price source was asked, is accounted for by what was asked.
-/

namespace LootFilter

def Item.snapshot (attributes : Attributes) (player : Option Player) (prices : Option PriceSource) :
    Item where
  place := .subject
  attributes
  player
  prices

structure Condition where
  text : String
  term : Term
  compiled : Schema.standard.compile text = .ok term

inductive Operation where
  | tags (query : TagQuery)
  | stats (p : Partition)
  | itemStats
  | value
  | rule (condition : Condition)

namespace Operation

inductive Reply where
  | truth (b : Bool)
  | stats (sum : StatTable Int64)
  | value (x : Float)
  | rule (answer : Except Fault Bool)

def run (it : Item) : Operation → SessionM Reply
  | tags query => .truth <$> Session.askTags it query
  | stats p => .stats <$> Session.sumPartition it p
  | itemStats => .stats <$> Session.sumPartition it .itemMods
  | value => .value <$> Session.estimateValue it
  | rule condition => .rule <$> (Schema.standard.evaluate condition.term it).run

/-- Whether the operation is about lists of tags, or evaluates a rule that can ask about them. -/
def IsAboutLists : Operation → Prop
  | tags query => query.IsAboutList
  | rule condition => ∃ node : Term, node.IsIn condition.term ∧
      node.Calls Helper.standard Helper.IsAboutTagList
  | _ => False

def AsksSum (p : Partition) : Operation → Prop
  | stats q => q = p
  | itemStats => p = .itemMods
  | _ => False

def after (it : Item) (ops : List Operation) (s : Session) : Session :=
  ops.foldl (fun s op => (op.run it s).2) s

end Operation

namespace Session

def SumRequested (s : Session) (it : Item) (p : Partition) : Prop :=
  .stats (.partition it p) ∈ s.requests ∨
    p = .itemMods ∧ .field (.item it) "ItemStats" ∈ s.requests

def ValueRequested (s : Session) (it : Item) : Prop :=
  .field (.item it) "EstimatedValue" ∈ s.requests

/-- Whether the sum is kept from the start, or was asked for by a rule or an operation. -/
def SumDue (root : Item) (ops : List Operation) (s : Session) (it : Item) (p : Partition) : Prop :=
  (Memo.initial it).sums.has p ∨ s.SumRequested it p ∨ it = root ∧ ∃ op ∈ ops, op.AsksSum p

def ValueDue (root : Item) (ops : List Operation) (s : Session) : Prop :=
  s.ValueRequested root ∨ .value ∈ ops

def SumsAccounted (root : Item) (ops : List Operation) (s : Session) : Prop :=
  ∀ it, root.Family it → ∀ p, s.hasSum it p → s.SumDue root ops it p

/-- Whether the value is kept only if it was asked for, and the price source was asked only for what
is kept. -/
structure ValueAccounted (root : Item) (ops : List Operation) (s : Session) : Prop where
  due : (s.memo root).price.isSome → s.ValueDue root ops
  queries : s.priceQueries ≤ if (s.memo root).price.isSome then 1 else 0

structure Accounted (root : Item) (ops : List Operation) (s : Session) : Prop where
  sums : s.SumsAccounted root ops
  value : s.ValueAccounted root ops

variable {root it : Item} {ops : List Operation} {s next : Session} {memo : Memo}

theorem accounted_empty : Accounted root ops {} where
  sums _ _ _ kept := .inl kept
  value := ⟨nofun, Nat.zero_le _⟩

/-! ## Steps -/

theorem SumDue.stays {p : Partition} (h : s.SumDue root ops it p)
    (requests : s.requests ⊆ next.requests) : next.SumDue root ops it p := by
  rcases h with initial | (asked | ⟨rfl, asked⟩) | asked
  · exact .inl initial
  · exact .inr (.inl (.inl (requests asked)))
  · exact .inr (.inl (.inr ⟨rfl, requests asked⟩))
  · exact .inr (.inr asked)

theorem SumsAccounted.stays (h : s.SumsAccounted root ops) (memos : next.memos = s.memos)
    (requests : s.requests ⊆ next.requests) : next.SumsAccounted root ops := by
  intro it family p kept
  rw [hasSum, Session.memo, memos] at kept
  exact (h it family p kept).stays requests

theorem ValueAccounted.stays (h : s.ValueAccounted root ops)
    (price : (next.memo root).price = (s.memo root).price)
    (queries : next.priceQueries = s.priceQueries) (requests : s.requests ⊆ next.requests) :
    next.ValueAccounted root ops := by
  constructor
  · rw [price]
    exact fun kept => (h.due kept).imp_left fun asked => requests asked
  · rw [price, queries]
    exact h.queries

theorem Accounted.note (h : s.Accounted root ops) (request : Request) :
    ((note request).run s).2.Accounted root ops where
  sums := h.sums.stays rfl (List.subset_cons_self _ _)
  value := h.value.stays rfl rfl (List.subset_cons_self _ _)

section steps

variable (subject : root.place = .subject) (family : root.Family it)

include subject family

theorem SumsAccounted.setMemo (h : s.SumsAccounted root ops)
    (due : ∀ p, memo.sums.has p → s.SumDue root ops it p) :
    (s.setMemo it memo).SumsAccounted root ops := by
  intro other family' p kept
  by_cases same : other.place = it.place
  · obtain rfl := Item.Family.eq_of_place subject family' family same
    rw [hasSum, memo_setMemo] at kept
    exact due p kept
  · rw [hasSum, memo_setMemo_of_ne same] at kept
    exact h other family' p kept

theorem ValueAccounted.setMemo (h : s.ValueAccounted root ops)
    (same : memo.price = (s.memo it).price) : (s.setMemo it memo).ValueAccounted root ops := by
  refine h.stays ?_ rfl (List.Subset.refl _)
  by_cases place : root.place = it.place
  · obtain rfl := Item.Family.eq_of_place subject .self family place
    rw [memo_setMemo, same]
  · rw [memo_setMemo_of_ne place]

variable (h : s.Accounted root ops)

include h

theorem Accounted.askTags (query : TagQuery) :
    ((askTags it query).run s).2.Accounted root ops := by
  cases found : (s.memo it).tags.lookup query.key with
  | some b => rwa [TagQuery.askTags_hit found]
  | none =>
    rw [TagQuery.askTags_miss found]
    exact ⟨h.sums.setMemo subject family (h.sums it family), h.value.setMemo subject family rfl⟩

theorem Accounted.sumPartition {p : Partition} (due : s.SumDue root ops it p) :
    ((sumPartition it p).run s).2.Accounted root ops := by
  have sums := h.sums it family
  cases found : (s.memo it).sums.sum? p with
  | some sum =>
    rw [sumPartition_hit found]
    exact ⟨h.sums.setMemo subject family sums, h.value.setMemo subject family rfl⟩
  | none =>
    rw [sumPartition_miss found]
    refine ⟨h.sums.setMemo subject family fun q kept => ?_, h.value.setMemo subject family rfl⟩
    by_cases same : q = p
    · rwa [same]
    · simp only [PartitionSums.has, PartitionSums.insert, if_neg same] at kept
      exact sums q kept

theorem Accounted.estimateValue (due : it = root → s.ValueDue root ops) :
    ((estimateValue it).run s).2.Accounted root ops := by
  cases found : (s.memo it).price with
  | some x => rwa [estimateValue_hit found]
  | none =>
    rw [estimateValue_miss found]
    have requested : s.requests ⊆ (s.priced it).requests := List.Subset.refl _
    have sums : (s.priced it).SumsAccounted root ops := h.sums.stays rfl requested
    refine ⟨sums.setMemo subject family fun p kept => (h.sums it family p kept).stays requested, ?_⟩
    -- Only the item that rules are asked about has a price source.
    by_cases same : it = root
    · subst same
      have unasked : s.priceQueries = 0 := by simpa [found] using h.value.queries
      constructor
      · exact fun _ => (due rfl).imp_left fun asked => requested asked
      · rw [memo_setMemo]
        change s.priceQueries + _ ≤ 1
        rw [unasked, Nat.zero_add]
        split <;> decide
    · obtain ⟨-, unpriced⟩ := family.eq_or_isBare.resolve_left same
      have unasked : (s.priced it).priceQueries = s.priceQueries := by
        rw [priced, unpriced]
        rfl
      refine h.value.stays ?_ unasked requested
      rw [memo_setMemo_of_ne fun place =>
        same (Item.Family.eq_of_place subject family .self place.symm)]
      rfl

end steps

end Session

/-! ## Evaluations -/

namespace Reading

def IsPlain {α : Type} {ty : Ty} : Reading α ty → Prop
  | allStats _ | price _ => False
  | _ => True

theorem run_plain {α : Type} {ty : Ty} {reading : Reading α ty} (plain : reading.IsPlain) (a : α) :
    ∃ v, reading.run a = pure v := by
  cases reading with
  | allStats | price => cases plain
  | _ => exact ⟨_, rfl⟩

end Reading

theorem Item.fields_plain : ∀ field ∈ fields, field.reading.IsPlain ∨
    field = ⟨"ItemStats", _, .allStats fun it => it⟩ ∨
    field = ⟨"EstimatedValue", _, .price fun it => it⟩ := by
  simp [fields, Reading.IsPlain]

theorem RecordKind.fields_plain {k : RecordKind} (other : k ≠ item) :
    ∀ field ∈ k.fields, field.reading.IsPlain := by
  cases k with
  | item => cases other rfl
  | modifier => simp [fields, PlacedModifier.fields, Reading.IsPlain]
  | player => simp [fields, Player.fields, Reading.IsPlain]
  | part p =>
    cases p with
    | mods =>
      refine List.forall_mem_append.2 ⟨?_, by simp [Reading.IsPlain]⟩
      intro field mem
      obtain ⟨p, -, rfl⟩ := List.mem_map.1 mem
      trivial
    | _ => simp [fields, Part.fields, Reading.IsPlain]

namespace Session.Accounted

variable {root : Item} {ops : List Operation} {s : Session}

theorem readPlain (h : s.Accounted root ops) {r : Record} {field : RecordField r.kind.Subject}
    (plain : field.reading.IsPlain) : ((r.read field).run s).2.Accounted root ops := by
  obtain ⟨v, run⟩ := Reading.run_plain plain r.subject
  unfold Record.read
  rw [run]
  exact h.note _

variable (subject : root.place = .subject) (h : s.Accounted root ops)

include subject h

theorem read {r : Record} {field : RecordField r.kind.Subject} (within : r.Within root)
    (mem : field ∈ r.kind.fields) : ((r.read field).run s).2.Accounted root ops := by
  obtain ⟨kind, it⟩ := r
  by_cases item : kind = .item
  · -- Two fields of items keep what is read of them.
    subst item
    rcases Item.fields_plain field mem with plain | rfl | rfl
    · exact h.readPlain plain
    · have noted := h.note (.field (.item it) "ItemStats")
      refine noted.sumPartition subject within ?_
      exact .inr (.inl (.inr ⟨rfl, .head _⟩))
    · have noted := h.note (.field (.item it) "EstimatedValue")
      refine noted.estimateValue subject within fun same => .inl ?_
      subst same
      exact .head _
  · exact h.readPlain (RecordKind.fields_plain item field mem)

theorem sumMods {mods : Mods} (within : mods.Within root) :
    ((Session.sumMods mods).run s).2.Accounted root ops := by
  cases mods with
  | partition it p =>
    have noted := h.note (.stats (.partition it p))
    refine noted.sumPartition subject within ?_
    exact .inr (.inl (.inl (.head _)))
  | picked ms => exact h.note _

end Session.Accounted

namespace Conduct

variable {C : Conduct} {ops : List Operation} {s : Session}

theorem Allows.accounted (subject : C.root.place = .subject) {α : Type} {e : SessionM α}
    (allowed : C.Allows e) (h : s.Accounted C.root ops) : (e.run s).2.Accounted C.root ops := by
  cases allowed with
  | tags family _ => exact h.askTags subject family _
  | read within mem => exact h.read subject within mem
  | sum within => exact h.sumMods subject within
  | display v => exact ⟨h.sums, h.value.due, h.value.queries⟩

end Conduct

/-! ## Operations -/

namespace Operation

variable {root : Item} {op : Operation} {ops : List Operation} {s : Session}

theorem admits_condition (condition : Condition) (it : Item) :
    (condition.term.conduct Helper.standard it).Admits
      (Schema.standard.evaluate condition.term it) fun _ => True :=
  Schema.admits_evaluate Schema.standard_sound condition.compiled it

theorem run_accounted (subject : root.place = .subject) (mem : op ∈ ops)
    (h : s.Accounted root ops) : ((op.run root).run s).2.Accounted root ops := by
  have due (p : Partition) (asks : op.AsksSum p) : s.SumDue root ops root p :=
    .inr (.inr ⟨rfl, op, mem, asks⟩)
  cases op with
  | tags query => exact h.askTags subject .self query
  | stats p => exact h.sumPartition subject .self (due p rfl)
  | itemStats => exact h.sumPartition subject .self (due .itemMods rfl)
  | value => exact h.estimateValue subject .self fun _ => .inr mem
  | rule condition =>
    exact (admits_condition condition root).preserves (fun allowed _ => allowed.accounted subject) h

theorem run_faithful (subject : root.place = .subject) (h : s.Faithful root) :
    ((op.run root).run s).2.Faithful root := by
  cases op with
  | tags query => exact Session.faithful_askTags subject .self query h
  | stats p => exact (Session.finds_sumPartition subject .self p s h).2
  | itemStats => exact (Session.finds_sumPartition subject .self .itemMods s h).2
  | value => exact (Session.finds_estimateValue subject .self s h).2
  | rule condition =>
    exact (admits_condition condition root).preserves (fun allowed _ => allowed.faithful subject) h

theorem run_finds (subject : root.place = .subject) (plain : ¬op.IsAboutLists) :
    ∃ reply, Session.Finds root (op.run root) reply := by
  cases op with
  | tags query => exact ⟨_, (Session.finds_askTags subject .self plain).map _⟩
  | stats p => exact ⟨_, (Session.finds_sumPartition subject .self p).map _⟩
  | itemStats => exact ⟨_, (Session.finds_sumPartition subject .self .itemMods).map _⟩
  | value => exact ⟨_, (Session.finds_estimateValue subject .self).map _⟩
  | rule condition =>
    obtain ⟨answer, finds⟩ := (admits_condition condition root).finds subject plain
    exact ⟨_, finds.map _⟩

theorem after_faithful (subject : root.place = .subject) : (after root ops {}).Faithful root := by
  have fresh : Session.Faithful root {} := Session.faithful_of_memos fun _ => rfl
  exact ops.foldlRecOn _ fresh fun s faithful op _ => run_faithful subject faithful

theorem after_accounted (subject : root.place = .subject) :
    (after root ops {}).Accounted root ops :=
  ops.foldlRecOn _ Session.accounted_empty fun _ accounted _ mem =>
    run_accounted subject mem accounted

/-- Whatever was asked of a snapshot before, an operation that is not about lists of tags has the
answer that it has on a fresh one. The price source is asked at most once, and only if the value
was asked for. A sum is kept from the start, or its own partition was asked for it. -/
theorem after_history (attributes : Attributes) (player : Option Player)
    (prices : Option PriceSource) (ops : List Operation) :
    let it := Item.snapshot attributes player prices
    let s := after it ops {}
    (∀ op : Operation, ¬op.IsAboutLists → ((op.run it).run s).1 = ((op.run it).run {}).1) ∧
      s.priceQueries ≤ 1 ∧
      (s.priceQueries ≠ 0 → s.ValueRequested it ∨ .value ∈ ops) ∧
      ∀ p, s.hasSum it p →
        (Memo.initial it).sums.has p ∨ s.SumRequested it p ∨ ∃ op ∈ ops, op.AsksSum p := by
  intro it s
  have subject : it.place = .subject := rfl
  have fresh : Session.Faithful it {} := Session.faithful_of_memos fun _ => rfl
  have faithful : s.Faithful it := after_faithful subject
  have accounted : s.Accounted it ops := after_accounted subject
  refine ⟨fun op plain => ?_, ?_, fun asked => ?_, fun p kept => ?_⟩
  · obtain ⟨reply, finds⟩ := run_finds subject plain
    rw [(finds s faithful).1, (finds {} fresh).1]
  · refine Nat.le_trans accounted.value.queries ?_
    split <;> decide
  · -- Whatever the price source says is kept.
    refine accounted.value.due ?_
    by_contra unknown
    have none := accounted.value.queries
    rw [if_neg unknown] at none
    exact asked (Nat.le_zero.1 none)
  · rcases accounted.sums it .self p kept with initial | asked | ⟨-, asked⟩
    · exact .inl initial
    · exact .inr (.inl asked)
    · exact .inr (.inr asked)

/-- The value is the same after it was asked for already, and a list of tags was asked about. -/
theorem after_history_value :
    let it := Item.snapshot default none (some fun _ => some 2.5)
    ¬IsAboutLists .value ∧
      ((run it .value).run (after it [.tags (.anyIn ["a_b"] "a"), .value] {})).1 =
        ((run it .value).run {}).1 := by
  intro it
  have single : ¬IsAboutLists .value := id
  exact ⟨single, (after_history default none _ _).1 .value single⟩

end Operation

end LootFilter
