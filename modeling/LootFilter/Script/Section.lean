import LootFilter.Text.Blank
import LootFilter.Text.Lines

/-!
# Sections of a script

A script is cut into sections by its blank lines. A line loses everything from its first `//` on.
Lines of which nothing is left are passed over at the start of a section. A section whose first line
then starts with `^` is negated. A section without any text is dropped.
-/

namespace LootFilter

structure Section where
  /-- The number of the first line that is not only a comment, counted from one. -/
  startLine : Nat
  negated : Bool
  text : String
  raw : String
deriving DecidableEq, Repr

namespace Section

def beforeComment : List Char → List Char
  | [] => []
  | '/' :: '/' :: _ => []
  | c :: cs => c :: beforeComment cs

def clean (line : String) : String := Text.trim (String.ofList (beforeComment line.toList))

def isBlankLine (line : String) : Bool := Text.allBlank line.toList

def takeNegation (line : String) : Bool × String :=
  match line.toList with
  | '^' :: rest => (true, String.ofList rest)
  | _ => (false, line)

/-- A section that is being read. -/
structure Draft where
  startLine : Nat
  negated : Bool
  cleaned : List String
  raw : List String

namespace Draft

/-- The draft that a line opens, if anything is left of the line. -/
def ofLine? (number : Nat) (line : String) : Option Draft :=
  if (clean line).isEmpty then none
  else
    let (negated, first) := takeNegation (clean line)
    some { startLine := number, negated, cleaned := [first], raw := [line] }

def add (draft : Draft) (line : String) : Draft :=
  { draft with cleaned := draft.cleaned ++ [clean line], raw := draft.raw ++ [line] }

def text (draft : Draft) : String := "\n".intercalate draft.cleaned

/-- The section, if it has any text. -/
def finish (draft : Draft) : Option Section :=
  if Text.allBlank draft.text.toList then none
  else
    some
      { startLine := draft.startLine
        negated := draft.negated
        text := draft.text
        raw := "\n".intercalate draft.raw }

end Draft

/-- What is being read after a line that is not blank. -/
def extend (number : Nat) (draft : Option Draft) (line : String) : Option Draft :=
  match draft with
  | some draft => some (draft.add line)
  | none => Draft.ofLine? number line

/-- The sections that end in the lines from number `next` on, when `draft` is being read. -/
def scan (next : Nat) (draft : Option Draft) : List String → List Section
  | [] => []
  | line :: lines =>
    if isBlankLine line then (draft.bind Draft.finish).toList ++ scan (next + 1) none lines
    else scan (next + 1) (extend next draft line) lines

end Section

/-- The sections of lines. Behind the lines stands a blank one, which ends the last section. -/
def sectionsOfLines (lines : List String) : List Section := Section.scan 1 none (lines ++ [""])

def sectionsOfText (script : String) : List Section := sectionsOfLines (Text.lines script)

end LootFilter
