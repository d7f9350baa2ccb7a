import LootFilter.Language.CompileError
import LootFilter.Language.Fault

/-!
# Events

What a filter reports while it works: failures, decisions, and answers that may surprise.
-/

namespace LootFilter

inductive Event where
  | ruleRejected (line : Nat) (raw : String) (error : CompileError)
  | filterLoaded (source : String) (rules failed : Nat)
  | ruleFaulted (line : Nat) (raw item : String) (fault : Fault)
  | ruleMatched (line : Nat) (raw item : String)
  /-- The value of an item was asked for, but nobody could tell it. -/
  | unpriced (baseName : String)
  | playerChanged (level : Int64) (owned : Nat)

namespace Event

inductive Level where
  | error
  | warn
  | info
  | debug
deriving DecidableEq, Repr

def Level.name : Level → String
  | error => "ERROR"
  | warn => "WARN"
  | info => "INFO"
  | debug => "DEBUG"

def level : Event → Level
  | ruleRejected .. | ruleFaulted .. => .error
  | filterLoaded .. => .info
  | unpriced .. => .warn
  | ruleMatched .. | playerChanged .. => .debug

def message : Event → String
  | ruleRejected _ _ error => "failed to compile rule: " ++ error.text
  | filterLoaded .. => "processed filter"
  | ruleFaulted _ _ _ fault => "evaluation error: " ++ fault.message
  | ruleMatched .. => "rule matched"
  | unpriced _ => "EstimatedValue used without a price source; reading 0"
  | playerChanged .. => "player snapshot changed"

def details : Event → List (String × String)
  | ruleRejected line raw _ => [("line", toString line), ("rule", raw)]
  | filterLoaded source rules failed =>
    [("source", source), ("rules", toString rules), ("failed", toString failed)]
  | ruleFaulted line raw item _ | ruleMatched line raw item =>
    [("line", toString line), ("rule", raw), ("item", item)]
  | unpriced baseName => [("item", baseName)]
  | playerChanged level owned => [("level", toString level), ("owned", toString owned)]

end Event

end LootFilter
