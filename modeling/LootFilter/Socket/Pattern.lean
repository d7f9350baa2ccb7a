import LootFilter.Text.Case

/-!
# Socket patterns

A socket text has one character per socket: the letter of its colour, whatever its case, `w` for a
white socket, which can stand in for any colour, and `?` for a socket of which only the place
counts.
-/

namespace LootFilter

structure SocketPattern where
  letters : List Char
  whites : Nat
  wildcards : Nat
  size : Nat
deriving DecidableEq, Repr

namespace SocketPattern

def isWhite (c : Char) : Bool := c == 'w' || c == 'W'

def isWildcard (c : Char) : Bool := c == '?'

def isColoured (c : Char) : Bool := !isWhite c && !isWildcard c

def ofChars (cs : List Char) : SocketPattern where
  letters := (cs.filter isColoured).flatMap Text.lowerChar
  whites := cs.countP isWhite
  wildcards := cs.countP isWildcard
  size := cs.length

def ofText (text : String) : SocketPattern := ofChars text.toList

def isEmpty (p : SocketPattern) : Bool := p.size == 0

def count (p : SocketPattern) (letter : Char) : Nat :=
  (Text.lowerChar letter).foldl (fun n c => n + p.letters.count c) 0

/-- How many coloured sockets of `p` find no socket of their colour in `candidate`. -/
def shortfall (p candidate : SocketPattern) : Nat :=
  p.letters.eraseDups.foldl (fun n c => n + (p.letters.count c - candidate.letters.count c)) 0

/-- Whether `candidate` has room for the sockets of `p`, or exactly room for them, and enough white
sockets for the ones that `p` asks for and for the colours it is short of. -/
def isSatisfiedBy (p candidate : SocketPattern) (exact : Bool) : Bool :=
  (if exact then candidate.size == p.size else decide (p.size ≤ candidate.size)) &&
    decide (p.shortfall candidate + p.whites ≤ candidate.whites)

end SocketPattern

def anyGroupSatisfies (groups : List String) (required : String) (exact : Bool) : Bool :=
  groups.any fun group =>
    (SocketPattern.ofText required).isSatisfiedBy (SocketPattern.ofText group) exact

def allGroupsSatisfy (groups : List String) (required : String) (exact : Bool) : Bool :=
  (SocketPattern.ofText required).isSatisfiedBy (SocketPattern.ofText (String.join groups)) exact

end LootFilter
