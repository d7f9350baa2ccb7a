import LootFilter.Language.Fault
import LootFilter.Value.Record

/-!
# Values

What expressions evaluate to. A value is read as a certain kind of value; reading it as another kind
is a fault, except that a whole number can be read as a double.
-/

namespace LootFilter

/-- A test that does not stem from a rule. -/
inductive Test where
  | constant (answer : Except Fault Bool)
  | positive

inductive Value where
  | bool (b : Bool)
  | int (n : Int64)
  | real (x : Float)
  | text (s : String)
  | list (vs : List Value)
  | record (r : Record)
  | mods (m : Mods)
  | intStats (t : StatTable Int64)
  | realStats (t : StatTable Float)
  | comparison (mode : Text.CaseMode)
  | test (t : Test)

namespace Value

def kind : Value → String
  | bool _ => "Boolean"
  | int _ => "Int64"
  | real _ => "Double"
  | text _ => "String"
  | list _ => "List"
  | record r => r.kind.name
  | mods _ => "ItemMod[]"
  | intStats _ => "StatTable<Int64>"
  | realStats _ => "StatTable<Double>"
  | comparison _ => "StringComparison"
  | test _ => "Func"

def mismatch {α : Type} (expected : String) (v : Value) : Except Fault α :=
  .error (.typeMismatch (.expected expected v.kind))

def asBool : Value → Except Fault Bool
  | bool b => .ok b
  | v => v.mismatch "Boolean"

def asInt : Value → Except Fault Int64
  | int n => .ok n
  | v => v.mismatch "Int64"

def asReal : Value → Except Fault Float
  | int n => .ok n.toFloat
  | real x => .ok x
  | v => v.mismatch "Double"

def asText : Value → Except Fault String
  | text s => .ok s
  | v => v.mismatch "String"

def asRecord : Value → Except Fault Record
  | record r => .ok r
  | v => v.mismatch "record"

def asList : Value → Except Fault (List Value)
  | list vs => .ok vs
  | v => v.mismatch "List"

def asMods : Value → Except Fault Mods
  | mods m => .ok m
  | v => v.mismatch "ItemMod[]"

def asTexts (v : Value) : Except Fault (List String) := do (← v.asList).mapM asText

def asReals (v : Value) : Except Fault (List Float) := do (← v.asList).mapM asReal

def asBools (v : Value) : Except Fault (List Bool) := do (← v.asList).mapM asBool

def asTextLists (v : Value) : Except Fault (List (List String)) := do (← v.asList).mapM asTexts

def asBoolLists (v : Value) : Except Fault (List (List Bool)) := do (← v.asList).mapM asBools

def asTest : Value → Except Fault Test
  | test t => .ok t
  | v => v.mismatch "Func"

def elements : Value → Except Fault (List Value)
  | list vs => .ok vs
  | mods m => .ok (m.toList.map fun m => record (.modifier m))
  | v => .error (.typeMismatch (.notASequence v.kind))

def print : Value → Except Fault String
  | text s => .ok s
  | int n => .ok (toString n)
  | real x => .ok (Decimal.text x)
  | bool b => .ok (if b then "True" else "False")
  | v => .error (.typeMismatch (.notPrintable v.kind))

mutual

/-- Whether two values are equal. Numbers are equal across their kinds; collections of modifiers,
stat tables, comparisons and tests equal nothing. -/
def equals : Value → Value → Bool
  | bool a, bool b => a == b
  | int a, int b => a == b
  | int a, real b => a.toFloat == b
  | real a, int b => a == b.toFloat
  | real a, real b => a == b
  | text a, text b => a == b
  | list as, list bs => equalsAll as bs
  | record a, record b => a.same b
  | _, _ => false

def equalsAll : List Value → List Value → Bool
  | [], [] => true
  | a :: as, b :: bs => equals a b && equalsAll as bs
  | _, _ => false

end

mutual

def inspect : Value → String
  | bool b => if b then "true" else "false"
  | int n => toString n
  | real x => Decimal.text x
  | text s => Text.quote s
  | list vs => "[" ++ ", ".intercalate (inspectAll vs) ++ "]"
  | record r => "<" ++ r.kind.name ++ ">"
  | mods m => "<" ++ toString m.size ++ " mods>"
  | intStats t => "<" ++ toString t.size ++ " stats>"
  | realStats t => "<" ++ toString t.size ++ " stats>"
  | comparison mode => mode.name
  | test _ => "<lambda>"

def inspectAll : List Value → List String
  | [] => []
  | v :: vs => inspect v :: inspectAll vs

end

end Value

def Test.run : Test → Value → Except Fault Bool
  | constant answer, _ => answer
  | positive, v => (fun n => decide (0 < n)) <$> v.asInt

end LootFilter
