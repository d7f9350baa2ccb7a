/-!
# Lines

A line ends at a line feed, and a carriage return right before that line feed belongs to the ending.
What follows the last line feed is a line only if it is not empty.
-/

namespace LootFilter.Text

/-- The lines of a text whose current line has so far the characters `line`, last one first. -/
def linesAfter (line : List Char) : List Char → List (List Char)
  | [] => if line.isEmpty then [] else [line.reverse]
  | c :: cs =>
    if c = '\n' then
      (match line with
        | '\r' :: before => before.reverse
        | _ => line.reverse) :: linesAfter [] cs
    else linesAfter (c :: line) cs

def lines (s : String) : List String := (linesAfter [] s.toList).map String.ofList

def baseName (path : String) : String :=
  String.ofList (path.toList.reverse.takeWhile fun c => c ≠ '/' && c ≠ '\\').reverse

def onOneLine (s : String) : String := s.map fun c => if c = '\n' then ' ' else c

end LootFilter.Text
