import LootFilter.Text.Case

/-!
# Searching text

Prefix, suffix and substring tests, by exact characters or with both sides in lower case.
-/

namespace LootFilter.Text

def occursIn (needle : List Char) : List Char → Bool
  | [] => needle.isEmpty
  | c :: cs => needle.isPrefixOf (c :: cs) || occursIn needle cs

def contains (text needle : String) : Bool := occursIn needle.toList text.toList

def startsWith (text needle : String) : Bool := needle.toList.isPrefixOf text.toList

def endsWith (text needle : String) : Bool := needle.toList.isSuffixOf text.toList

def containsIgnoringCase (text needle : String) : Bool := contains (lower text) (lower needle)

inductive CaseMode where
  | ordinal
  | ignoreCase
deriving DecidableEq, Repr

namespace CaseMode

def fold : CaseMode → String → String
  | ordinal, s => s
  | ignoreCase, s => lower s

def equals (mode : CaseMode) (text other : String) : Bool := mode.fold text == mode.fold other

def contains (mode : CaseMode) (text needle : String) : Bool :=
  Text.contains (mode.fold text) (mode.fold needle)

def startsWith (mode : CaseMode) (text needle : String) : Bool :=
  Text.startsWith (mode.fold text) (mode.fold needle)

def endsWith (mode : CaseMode) (text needle : String) : Bool :=
  Text.endsWith (mode.fold text) (mode.fold needle)

def name : CaseMode → String
  | ordinal => "Ordinal"
  | ignoreCase => "IgnoreCase"

end CaseMode

end LootFilter.Text
