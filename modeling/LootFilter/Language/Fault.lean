/-!
# Why a rule fails on an item

A fault stops the evaluation of one rule on one item.
-/

namespace LootFilter

namespace Fault

inductive Mismatch where
  | expected (kind found : String)
  | notPrintable (kind : String)
  | notASequence (kind : String)
  | notAStatTable (kind : String)
  | notAComparison (kind : String)
  | unboundLocal (index : Nat)
  | missingField (record : String) (index : Nat)
  | unknownHelper (index : Nat)
  | missingArgument

def Mismatch.message : Mismatch → String
  | expected kind found => "expected " ++ kind ++ ", found " ++ found
  | notPrintable kind => "cannot concatenate " ++ kind
  | notASequence kind => kind ++ " is not a sequence"
  | notAStatTable kind => kind ++ " is not a stat table"
  | notAComparison kind => kind ++ " is not a StringComparison"
  | unboundLocal index => "unbound local " ++ toString index
  | missingField record index => record ++ " has no field #" ++ toString index
  | unknownHelper index => "unknown helper #" ++ toString index
  | missingArgument => "missing argument"

end Fault

inductive Fault where
  | divideByZero
  | indexOutOfRange (index : Int64) (length : Nat)
  | lengthMismatch (what : String) (left right : Nat)
  | emptySequence
  | typeMismatch (mismatch : Fault.Mismatch)

def Fault.message : Fault → String
  | divideByZero => "Attempted to divide by zero"
  | indexOutOfRange index length =>
    "Index " ++ toString index ++ " was out of range for a sequence of length " ++ toString length
  | lengthMismatch what left right =>
    what ++ ": expected matching lengths, got " ++ toString left ++ " and " ++ toString right
  | emptySequence => "Sequence contains no elements"
  | typeMismatch mismatch => "Type mismatch: " ++ mismatch.message

end LootFilter
