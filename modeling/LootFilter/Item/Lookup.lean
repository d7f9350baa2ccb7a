import LootFilter.Item.Item
import LootFilter.Language.Fault

/-!
# Looking up modifiers

Modifiers are looked up by name without regard to letter case.
-/

namespace LootFilter

namespace Item

def findModifiers (it : Item) (wanted : String) : List PlacedModifier :=
  (it.shelf (.partition .itemMods)).filter fun m =>
    Text.containsIgnoringCase m.modifier.name wanted

/-- The modifiers with names among `wanted` and not among `seen`, the first one of each name; all
names are in lower case. -/
def firstNamed (wanted : List String) : (seen : List String) → List Modifier → List Modifier
  | _, [] => []
  | seen, m :: ms =>
    let name := Text.lower m.name
    if wanted.contains name && !seen.contains name then m :: firstNamed wanted (name :: seen) ms
    else firstNamed wanted seen ms

def modifiersNamed (it : Item) (wanted : List String) : List Modifier :=
  firstNamed (wanted.map Text.lower) [] it.modifiers

def hasModifiers (it : Item) (wanted : List String) : Bool :=
  (it.modifiersNamed wanted).length == wanted.length

def namedStats (it : Item) (wanted : List String) : StatTable Int64 :=
  Modifier.sum (it.modifiersNamed wanted)

/-- Every modifier once for each name that it has, with the weight of that name. -/
def weightedModifiers {N : Type} (it : Item) (names : List String) (weights : List N) :
    List (Modifier × N) :=
  it.modifiers.flatMap fun m =>
    ((names.zip weights).filter fun (name, _) => Text.lower name == Text.lower m.name).map
      fun (_, weight) => (m, weight)

def weightedStats {N : Type} [StatNumber N] (it : Item) (names : List String) (weights : List N) :
    Except Fault (StatTable N) :=
  if names.length = weights.length then
    .ok (Modifier.weightedSum (it.weightedModifiers names weights))
  else .error (.lengthMismatch "ModWeightedStatSum" names.length weights.length)

end Item

def hasAnyModifierSet (mods : List Modifier) (sets : List (List String)) : Bool :=
  let names := mods.map fun m => Text.lower m.rawName
  sets.any fun set => set.all fun name => names.contains (Text.lower name)

def containsAny (text : String) (wanted : List String) : Bool :=
  wanted.any (Text.containsIgnoringCase text ·)

def containsAnyExactly (text : String) (wanted : List String) : Bool :=
  wanted.any (Text.contains text ·)

def anySetHolds (sets : List (List Bool)) : Bool := sets.any fun set => set.all fun b => b

end LootFilter
