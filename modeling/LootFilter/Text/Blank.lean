import LootFilter.Text.CodeRange

/-!
# White space

White space is the Unicode property White_Space: 25 characters. Trimming removes it from both ends.
-/

namespace LootFilter.Text

def blankRanges : CodeRanges :=
  [(9, 13), (32, 32), (133, 133), (160, 160), (5760, 5760), (8192, 8202), (8232, 8233),
   (8239, 8239), (8287, 8287), (12288, 12288)]

def isBlank (c : Char) : Bool := blankRanges.covers c.toNat

def trimStart (cs : List Char) : List Char := cs.dropWhile isBlank

def trimEnd (cs : List Char) : List Char := (cs.reverse.dropWhile isBlank).reverse

def trimChars (cs : List Char) : List Char := trimEnd (trimStart cs)

def trim (s : String) : String := String.ofList (trimChars s.toList)

def allBlank (cs : List Char) : Bool := cs.all isBlank

end LootFilter.Text
