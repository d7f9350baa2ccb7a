import LootFilter.Stat.Table

/-!
# Modifiers

A modifier of an item contributes values to stats. Summing a list of modifiers adds up their
contributions key by key, each scaled by the weight of its modifier.
-/

namespace LootFilter

inductive Affix where
  | leading
  | trailing
  | none
deriving DecidableEq, Repr, Inhabited

namespace Affix

def name : Affix → String
  | leading => "Prefix"
  | trailing => "Suffix"
  | none => "None"

def all : List Affix := [leading, trailing, none]

end Affix

/-- A modifier, with what it contributes to stats in the order in which it lists them. -/
structure Modifier where
  /-- The name of the group it belongs to. -/
  name : String
  rawName : String := ""
  /-- The name players see. -/
  displayName : String := ""
  affix : Affix := .none
  stats : List (String × Int64) := []
deriving DecidableEq, Repr, Inhabited

namespace Modifier

def ofName (name : String) : Modifier := { name, rawName := name, displayName := name }

def contributions {N : Type} [StatNumber N] (m : Modifier) (weight : N) : List (String × N) :=
  m.stats.map fun (key, value) => (key, StatNumber.mul (StatNumber.ofInt64 value) weight)

def weightedSum {N : Type} [StatNumber N] (ms : List (Modifier × N)) : StatTable N :=
  .ofContributions (ms.flatMap fun (m, weight) => m.contributions weight)

def sum (ms : List Modifier) : StatTable Int64 := weightedSum (ms.map fun m => (m, 1))

end Modifier

end LootFilter
