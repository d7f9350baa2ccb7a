import LootFilter.Text.CaseTable

/-!
# Upper and lower case

Case mapping of whole texts. A character may map to several, and the capital sigma has two lower
case forms: the final one at the end of a word, the plain one elsewhere.
-/

namespace LootFilter.Text

/-- Where a run moves a code point. Runs are listed by their first code point. -/
def runTarget : List CaseRun → Nat → Option Nat
  | [], _ => none
  | run :: rest, n =>
    if n < run.first then none
    else if n ≤ run.last ∧ (n - run.first) % run.step = 0 then some (n + run.shift).toNat
    else runTarget rest n

/-- A character mapped by a list of expansions and, failing that, by runs. -/
def mapCase (expansions : List (Nat × List Nat)) (runs : List CaseRun) (c : Char) : List Char :=
  match expansions.lookup c.toNat with
  | some ns => ns.map Char.ofNat
  | none => ((runTarget runs c.toNat).map fun n => [Char.ofNat n]).getD [c]

def lowerChar (c : Char) : List Char := mapCase lowerExpansions lowerRuns c

def upperChar (c : Char) : List Char := mapCase upperExpansions upperRuns c

def isCased (c : Char) : Bool := casedRanges.covers c.toNat

def isCaseIgnorable (c : Char) : Bool := caseIgnorableRanges.covers c.toNat

def meetsCased (cs : List Char) : Bool :=
  match cs.dropWhile isCaseIgnorable with
  | [] => false
  | c :: _ => isCased c

/-- Whether a word ends between the characters before (nearest first) and the characters after. -/
def endsWord (before after : List Char) : Bool := meetsCased before && !meetsCased after

/-- The lower case of `cs`, standing behind the characters `before` (nearest first). -/
def lowerAfter (before : List Char) : List Char → List Char
  | [] => []
  | c :: cs =>
    (if c = 'Σ' then [if endsWord before cs then 'ς' else 'σ'] else lowerChar c) ++
      lowerAfter (c :: before) cs

def lowerChars (cs : List Char) : List Char := lowerAfter [] cs

def upperChars (cs : List Char) : List Char := cs.flatMap upperChar

def lower (s : String) : String := String.ofList (lowerChars s.toList)

def upper (s : String) : String := String.ofList (upperChars s.toList)

end LootFilter.Text
