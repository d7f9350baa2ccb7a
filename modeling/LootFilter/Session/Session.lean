import LootFilter.Session.Event
import LootFilter.Value.Value

/-!
# Sessions

A session is what happens to the items that rules are evaluated on: answers that are costly to find
are kept with their item, the price source is asked, and events are reported. The answer of a tag
query is kept under its key, so that queries with one key share one answer.
-/

namespace LootFilter

inductive TagQuery where
  /-- Whether a tag of the item contains the text in any letter case. -/
  | any (wanted : String)
  /-- Whether a tag of the item contains the text as it is. -/
  | exact (wanted : String)
  | anyIn (tags : List String) (wanted : String)
  | exactIn (tags : List String) (wanted : String)

namespace TagQuery

def sortedJoin (tags : List String) : String :=
  "_".intercalate (tags.mergeSort fun a b => decide (a ≤ b))

/-- What the answer is kept under. -/
def key : TagQuery → String
  | any wanted => "Single_" ++ Text.lower wanted
  | exact wanted => "SingleCase_" ++ wanted
  | anyIn tags wanted => "List_" ++ sortedJoin tags ++ "_" ++ Text.lower wanted
  | exactIn tags wanted => "ListCase_" ++ sortedJoin tags ++ "_" ++ wanted

def answer (it : Item) : TagQuery → Bool
  | any wanted =>
    (it.attributes.tags ++ it.attributes.pathTags).any (Text.containsIgnoringCase · wanted)
  | exact wanted => (it.attributes.tags ++ it.attributes.pathTags).any (Text.contains · wanted)
  | anyIn tags wanted => tags.any (Text.containsIgnoringCase · wanted)
  | exactIn tags wanted => tags.any (Text.contains · wanted)

end TagQuery

structure Memo where
  tags : List (String × Bool) := []
  sums : PartitionSums := .empty
  price : Option Float := none

/-- What is kept with an item from the start: identified items and maps need the sum of all their
modifiers at once. -/
def Memo.initial (it : Item) : Memo where
  sums :=
    if it.attributes.isIdentified || it.attributes.map.isSome then
      PartitionSums.empty.insert .itemMods it.stats
    else .empty

inductive Request where
  | field (r : Record) (name : String)
  | stats (mods : Mods)

structure Session where
  memos : Place → Option Memo := fun _ => none
  priceQueries : Nat := 0
  log : List Event := []
  /-- The values that rules had shown, in their order. -/
  shown : List Value := []
  /-- What rules asked of records so far, the latest first. -/
  requests : List Request := []

abbrev SessionM := StateM Session

/-- A computation within a session that a fault may stop. What it did before the fault stays. -/
abbrev EvalM := ExceptT Fault SessionM

namespace Session

def memo (s : Session) (it : Item) : Memo := (s.memos it.place).getD (.initial it)

def setMemo (s : Session) (it : Item) (memo : Memo) : Session :=
  { s with memos := fun place => if place = it.place then some memo else s.memos place }

def report (event : Event) : SessionM Unit := modify fun s => { s with log := s.log ++ [event] }

def display (v : Value) : SessionM Unit := modify fun s => { s with shown := s.shown ++ [v] }

def note (request : Request) : SessionM Unit :=
  modify fun s => { s with requests := request :: s.requests }

/-- The kept answer of a tag query, or else its answer for the item, which is then kept. -/
def askTags (it : Item) (query : TagQuery) : SessionM Bool := fun s =>
  let memo := s.memo it
  match memo.tags.lookup query.key with
  | some answer => (answer, s)
  | none =>
    let answer := query.answer it
    (answer, s.setMemo it { memo with tags := (query.key, answer) :: memo.tags })

def keptTags (s : Session) (it : Item) : Nat := (s.memo it).tags.length

def sumPartition (it : Item) (p : Partition) : SessionM (StatTable Int64) := fun s =>
  let memo := s.memo it
  let (sum, sums) := memo.sums.getOrInsert p (it.partitionSum p)
  (sum, s.setMemo it { memo with sums })

def hasSum (s : Session) (it : Item) (p : Partition) : Bool := (s.memo it).sums.has p

/-- The sum of a collection of modifiers, as a rule asks for it; only the sums of partitions are
kept. -/
def sumMods (mods : Mods) : SessionM (StatTable Int64) := do
  note (.stats mods)
  match mods with
  | .partition it p => sumPartition it p
  | .picked ms => return Modifier.sum (ms.map PlacedModifier.modifier)

def askPrice (it : Item) : SessionM (Option Float) := fun s =>
  match it.prices with
  | some price => (price it.attributes, { s with priceQueries := s.priceQueries + 1 })
  | none => (none, s)

/-- The value of the item, which is kept. It is zero, and that is reported, if nobody can tell. -/
def estimateValue (it : Item) : SessionM Float := do
  match ((← get).memo it).price with
  | some kept => return kept
  | none =>
    let value ←
      match ← askPrice it with
      | some value => pure value
      | none =>
        report (.unpriced it.baseName)
        pure 0.0
    modify fun s => s.setMemo it { s.memo it with price := some value }
    return value

/-- The session in which the item and the player were observed anew: nothing is kept with them. -/
def withNewItems (s : Session) : Session := { s with memos := fun _ => none }

end Session

end LootFilter
