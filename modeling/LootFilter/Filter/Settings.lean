import LootFilter.Json.Shape

/-!
# Settings

What the host of a filter can set.
-/

namespace LootFilter

structure Settings where
  debug : Bool := false
  /-- How many milliseconds lie between two readings of the player at least. -/
  refreshInterval : Nat := 1000
deriving DecidableEq, Repr, Inhabited

namespace Settings

def reader : Json.Reader Settings := Json.record
  [.of "debug" Json.bool fun v s => { s with debug := v },
   .of "player_refresh_interval_ms" Json.nat64 fun v s => { s with refreshInterval := v }] {}

def ofJson (json : String) : Except Json.Flaw Settings := Json.readAll reader json

def refreshNanoseconds (s : Settings) : Nat := s.refreshInterval * 1000000

end Settings

end LootFilter
