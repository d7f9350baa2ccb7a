import LootFilter.Filter.Rule
import LootFilter.Filter.Settings

/-!
# Rule sets

The rules of a filter are tried in their order. The first one that fires decides: it accepts the
item, or rejects it if it is negated. If none fires, the item is not accepted. A rule that fails on
the item is noted and passed over.
-/

namespace LootFilter

structure DecidingRule where
  line : Nat
  raw : String
  negated : Bool
deriving DecidableEq, Repr

structure Verdict where
  matched : Bool := false
  deciding : Option DecidingRule := none
  /-- The rules that failed before the deciding one. -/
  faults : List RuleFault := []

namespace Verdict

def isMatch (v : Verdict) : Bool := v.matched

def hasFaults (v : Verdict) : Bool := !v.faults.isEmpty

end Verdict

structure RuleSet where
  name : String
  rules : List Rule

inductive FileError where
  | notFound
  | notText
deriving DecidableEq, Repr

namespace RuleSet

def size (set : RuleSet) : Nat := set.rules.length

def isEmpty (set : RuleSet) : Bool := set.rules.isEmpty

def compileErrors (set : RuleSet) : List (Nat × CompileError) :=
  set.rules.filterMap fun rule => rule.error?.map fun e => (rule.line, e)

/-! ## Loading -/

/-- The set of some rules, named for the last part of their source's path. That it was loaded is
reported. -/
def ofRules (source : String) (rules : List Rule) : SessionM RuleSet := do
  let set : RuleSet := ⟨Text.baseName source, rules⟩
  Session.report (.filterLoaded set.name set.size set.compileErrors.length)
  return set

def ofSections (source : String) (sections : List Section) : SessionM RuleSet := do
  ofRules source (← sections.mapM Rule.ofSection)

def ofScript (script : String) : SessionM RuleSet := ofSections "memory" (sectionsOfText script)

/-- Loads one rule from each text. The lines of the rules are their numbers. -/
def ofTexts (source : String) (texts : List String) : SessionM RuleSet := do
  ofRules source (← (texts.zipIdx 1).mapM fun (text, line) => Rule.ofText line text)

/-- Loads a script from the contents of a file; a file that does not exist has none. -/
def ofFile (path : String) (contents : Option ByteArray) :
    SessionM (Except FileError RuleSet) := do
  match contents with
  | none => return .error .notFound
  | some bytes =>
    match String.fromUTF8? bytes with
    | none => return .error .notText
    | some script => return .ok (← ofSections path (sectionsOfText script))

/-! ## Deciding -/

def tryRules (it : Item) (debug : Bool) : List Rule → SessionM Verdict
  | [] => pure {}
  | rule :: rules => do
    match ← rule.run it debug with
    | .silent => tryRules it debug rules
    | .fired =>
      return { matched := !rule.negated, deciding := some ⟨rule.line, rule.raw, rule.negated⟩ }
    | .faulted fault =>
      let verdict ← tryRules it debug rules
      return { verdict with faults := fault :: verdict.faults }

def decide (set : RuleSet) (it : Item) (debug : Bool) : SessionM Verdict :=
  tryRules it debug set.rules

def accepts (set : RuleSet) (it : Item) : SessionM Bool := do
  return (← set.decide it false).matched

def decideWith (set : RuleSet) (it : Item) (settings : Settings) : SessionM Verdict :=
  set.decide it settings.debug

def inspect (set : RuleSet) : String :=
  "RuleSet \x7b name: " ++ Text.quote set.name ++ ", rules: [" ++
    ", ".intercalate (set.rules.map Rule.inspect) ++ "] \x7d"

end RuleSet

end LootFilter
