import LootFilter.Item.Lookup
import LootFilter.Session.Session
import LootFilter.Socket.Pattern

/-!
# Helpers

Helpers are the functions that rules can call by name. Helpers of one name differ in what arguments
they take. A helper reads all of its arguments, from the first on, before it does anything.
-/

namespace LootFilter

inductive Argument where
  | value (v : Value)
  | lambda (test : Value → EvalM Bool)

abbrev ReadArgs := StateT (List Argument) (Except Fault)

namespace ReadArgs

def next : ReadArgs Argument := do
  match ← get with
  | [] => throw (.typeMismatch .missingArgument)
  | arg :: args => set args; return arg

def value (expected : String) : ReadArgs Value := do
  match ← next with
  | .value v => return v
  | .lambda _ => throw (.typeMismatch (.expected expected "Func"))

def bool : ReadArgs Bool := do return ← (← value "Boolean").asBool

def text : ReadArgs String := do return ← (← value "String").asText

def texts : ReadArgs (List String) := do return ← (← value "List").asTexts

def reals : ReadArgs (List Float) := do return ← (← value "List").asReals

def textLists : ReadArgs (List (List String)) := do return ← (← value "List").asTextLists

def boolLists : ReadArgs (List (List Bool)) := do return ← (← value "List").asBoolLists

def mods : ReadArgs Mods := do return ← (← value "ItemMod[]").asMods

def criterion : ReadArgs (Item → EvalM Bool) := do
  match ← next with
  | .lambda test => return fun it => test (.record (.item it))
  | .value v =>
    let test ← v.asTest
    return fun it => liftExcept (test.run (.record (.item it)))
where
  liftExcept (answer : Except Fault Bool) : EvalM Bool := ExceptT.mk (pure answer)

def sockets : ReadArgs (String × Bool) := do
  let isGiven := 1 < (← get).length
  let pattern ← text
  return (pattern, ← if isGiven then bool else pure false)

end ReadArgs

structure Helper where
  name : String
  params : List Ty
  /-- The element type of any number of further arguments; they are passed on as one list. -/
  variadic : Option ElemTy
  returns : Ty
  call : Item → List Argument → EvalM Value

namespace Helper

def reading {α : Type} (read : ReadArgs α) (act : Item → α → EvalM Value) (it : Item)
    (args : List Argument) : EvalM Value :=
  match read.run' args with
  | .ok a => act it a
  | .error fault => throw fault

def holds {α : Type} (read : ReadArgs α) (test : Item → α → Bool) :
    Item → List Argument → EvalM Value :=
  reading read fun it a => pure (.bool (test it a))

def tags (read : ReadArgs TagQuery) : Item → List Argument → EvalM Value :=
  reading read fun it query => .bool <$> Session.askTags it query

end Helper

namespace Item

/-- Whether the criterion holds for the item and for none of the `owned` ones, which are only asked
about if it does, and in their order. -/
def isUnowned (it : Item) (owned : List Item) (criterion : Item → EvalM Bool) : EvalM Bool := do
  if ← criterion it then return !(← owned.anyM criterion) else return false

def isUnownedItem (it : Item) (criterion : Item → EvalM Bool) : EvalM Bool :=
  it.isUnowned it.viewer.ownedItems criterion

/-- Only a gem can be one that the player lacks. -/
def isUnownedGem (it : Item) (criterion : Item → EvalM Bool) : EvalM Bool :=
  if it.isGem then it.isUnowned it.viewer.ownedGems criterion else pure false

end Item

namespace Helper

open ReadArgs in
def standard : List Helper :=
  [{ name := "HasTag", params := [.text], variadic := none, returns := .bool
     call := tags (return .any (← text)) },
   { name := "HasTag", params := [.list (.scalar .text), .text], variadic := none, returns := .bool
     call := tags (return .anyIn (← texts) (← text)) },
   { name := "HasTagCase", params := [.text], variadic := none, returns := .bool
     call := tags (return .exact (← text)) },
   { name := "HasTagCase", params := [.list (.scalar .text), .text], variadic := none
     returns := .bool
     call := tags (return .exactIn (← texts) (← text)) },
   { name := "ContainsString", params := [.text], variadic := some (.scalar .text)
     returns := .bool
     call := holds (return (← text, ← texts)) fun _ (input, wanted) => containsAny input wanted },
   { name := "ContainsStringCase", params := [.text], variadic := some (.scalar .text)
     returns := .bool
     call := holds (return (← text, ← texts)) fun _ (input, wanted) =>
       containsAnyExactly input wanted },
   { name := "HasMods", params := [], variadic := some (.scalar .text), returns := .bool
     call := holds texts Item.hasModifiers },
   { name := "FindMods", params := [.text], variadic := none, returns := .mods
     call := reading text fun it wanted => pure (.mods (.picked (it.findModifiers wanted))) },
   { name := "ModStats", params := [], variadic := some (.scalar .text), returns := .intStats
     call := reading texts fun it wanted => pure (.intStats (it.namedStats wanted)) },
   { name := "ModWeightedStatSum", params := [.list (.scalar .text), .list (.scalar .real)]
     variadic := none, returns := .realStats
     call := reading (return (← texts, ← reals)) fun it (names, weights) =>
       match it.weightedStats names weights with
       | .ok table => pure (.realStats table)
       | .error fault => throw fault },
   { name := "HasAnyModSet", params := [.list (.scalars .text)], variadic := none
     returns := .bool
     call := holds textLists fun it sets => hasAnyModifierSet it.attributes.mods.explicit sets },
   { name := "HasAnyModSet", params := [.mods, .list (.scalars .text)], variadic := none
     returns := .bool
     call := holds (return (← mods, ← textLists)) fun _ (mods, sets) =>
       hasAnyModifierSet (mods.toList.map PlacedModifier.modifier) sets },
   { name := "HasAnyMatchingConditionSet", params := [.list (.scalars .bool)], variadic := none
     returns := .bool
     call := holds boolLists fun _ sets => anySetHolds sets },
   { name := "HasUnorderedSocketGroup", params := [.text], variadic := none, returns := .bool
     call := holds sockets fun it (pattern, exact) =>
       anyGroupSatisfies it.attributes.sockets.groups pattern exact },
   { name := "HasUnorderedSocketGroup", params := [.text, .bool], variadic := none
     returns := .bool
     call := holds sockets fun it (pattern, exact) =>
       anyGroupSatisfies it.attributes.sockets.groups pattern exact },
   { name := "HasSockets", params := [.text], variadic := none, returns := .bool
     call := holds sockets fun it (pattern, exact) =>
       allGroupsSatisfy it.attributes.sockets.groups pattern exact },
   { name := "HasSockets", params := [.text, .bool], variadic := none, returns := .bool
     call := holds sockets fun it (pattern, exact) =>
       allGroupsSatisfy it.attributes.sockets.groups pattern exact },
   { name := "GetTotalAffixSlots", params := [], variadic := none, returns := .int
     call := fun it _ => pure (.int it.affixSlots) },
   { name := "IsUnownedItem", params := [.criterion (.record .item)], variadic := none
     returns := .bool
     call := reading criterion fun it test => .bool <$> it.isUnownedItem test },
   { name := "IsUnownedGem", params := [.criterion (.record .item)], variadic := none
     returns := .bool
     call := reading criterion fun it test => .bool <$> it.isUnownedGem test }]

/-- Shows a value of the given type and holds. -/
def showing (ty : Ty) : Helper where
  name := "Show"
  params := [ty]
  variadic := none
  returns := .bool
  call := reading (ReadArgs.value ty.name) fun _ v => do
    Session.display v
    return .bool true

def showable : List Ty :=
  [.bool, .int, .real, .text, .record .item, .record .modifier, .record .player,
   .record (.part .map), .list (.scalar .bool), .list (.scalar .int), .list (.scalar .real),
   .list (.scalar .text), .list (.scalars .bool), .list (.scalars .int), .list (.scalars .real),
   .list (.scalars .text), .list (.record .item), .list (.record .modifier), .mods, .intStats,
   .realStats, .comparison]

end Helper

/-- What rules can refer to besides the fields of records. -/
structure Schema where
  helpers : List Helper
  /-- Texts that can be named as members of an enumeration. -/
  enumerations : List (String × List String)

namespace Schema

def standard : Schema where
  helpers := Helper.standard
  enumerations := [("ItemRarity", Rarity.all.map Rarity.name)]

/-- The standard schema with a helper that shows what expressions evaluate to. -/
def traced : Schema where
  helpers := Helper.standard ++ Helper.showable.map Helper.showing
  enumerations := standard.enumerations

end Schema

end LootFilter
