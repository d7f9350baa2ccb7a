import LootFilter.Language.Evaluation
import LootFilter.Script.Section

/-!
# Rules

A rule of a filter is a condition with its place in a script. A rule whose text does not compile is
kept with the error, and never fires.
-/

namespace LootFilter

structure Rule where
  /-- The line on which the rule starts, counted from one. -/
  line : Nat
  negated : Bool
  text : String
  raw : String
  compiled : Except CompileError Term

structure RuleFault where
  line : Nat
  raw : String
  item : String
  fault : Fault

inductive Outcome where
  /-- The condition does not hold, or did not compile. -/
  | silent
  | fired
  | faulted (fault : RuleFault)

namespace Rule

def compileSection (s : Section) : Rule where
  line := s.startLine
  negated := s.negated
  text := s.text
  raw := s.raw
  compiled := Schema.standard.compile s.text

def error? (rule : Rule) : Option CompileError :=
  match rule.compiled with
  | .ok _ => none
  | .error e => some e

def isCompiled (rule : Rule) : Bool := rule.error?.isNone

/-- The rule of a section. A text that does not compile is reported. -/
def ofSection (s : Section) : SessionM Rule := do
  let rule := compileSection s
  match rule.error? with
  | some error => Session.report (.ruleRejected rule.line rule.raw error)
  | none => pure ()
  return rule

def ofText (line : Nat) (text : String) : SessionM Rule := ofSection ⟨line, false, text, text⟩

/-- Runs the rule on an item and reports a fault, and with `debug` also that the rule fired. -/
def run (rule : Rule) (it : Item) (debug : Bool) : SessionM Outcome := do
  match rule.compiled with
  | .error _ => return .silent
  | .ok condition =>
    match ← (Schema.standard.evaluate condition it).run with
    | .ok false => return .silent
    | .ok true =>
      if debug then Session.report (.ruleMatched rule.line rule.raw it.describe)
      return .fired
    | .error fault =>
      Session.report (.ruleFaulted rule.line rule.raw it.describe fault)
      return .faulted ⟨rule.line, rule.raw, it.describe, fault⟩

/-- Whether the condition of the rule holds, negated or not. A fault counts as no. -/
def holds (rule : Rule) (it : Item) (debug : Bool) : SessionM Bool := do
  match ← rule.run it debug with
  | .fired => return true
  | _ => return false

def describe (rule : Rule) : String :=
  "line " ++ toString rule.line ++ (if rule.isCompiled then " [ok]: " else " [failed]: ") ++
    Text.onOneLine rule.raw

def inspect (rule : Rule) : String :=
  "Rule \x7b line: " ++ toString rule.line ++ ", negated: " ++ toString rule.negated ++
    ", raw: " ++ Text.quote rule.raw ++ ", compiled: " ++ toString rule.isCompiled ++ " \x7d"

end Rule

end LootFilter
