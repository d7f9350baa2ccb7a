import LootFilter.Progress
import LootFilter.Decimal.Digits
import LootFilter.Decimal.Shortest
import LootFilter.Text.Letter

/-!
# Reading JSON by type

A reader takes one JSON value of a known shape from the front of a text. It goes from left to right
and stops at the first problem, so of two flaws the earlier one is reported, whether it lies in the
text or in the shape. Values that nobody asked for are skimmed: they must be well formed, but their
numbers may have any size and their texts any escapes.
-/

namespace LootFilter.Json

open Text (isDigit)
open Decimal (digitsValue)

inductive Flaw where
  | malformed
  | cutShort
  /-- The text is JSON so far, but has another shape. -/
  | misfit
deriving DecidableEq, Repr

abbrev Result (α : Type) (limit : Nat) := Except Flaw (Parsed Char α limit)

/-- Reads a value from the front of a text, when `depth` more brackets may be opened. -/
abbrev Reader (α : Type) := (depth : Nat) → (cs : List Char) → Result α cs.length

/-- How many brackets may be open at once. -/
def maxDepth : Nat := 127

def isSpace (c : Char) : Bool := c == ' ' || c == '\n' || c == '\t' || c == '\r'

def spaced {α : Type} (read : (cs : List Char) → Result α cs.length) (cs : List Char) :
    Result α cs.length :=
  let space := Parsed.span isSpace cs
  (space.andSurely ·) <$> read space.rest

def next : (cs : List Char) → Result Char cs.length :=
  spaced fun
    | [] => .error .cutShort
    | c :: rest => .ok (.stay c rest)

/-! ## Texts -/

def hexDigit? (c : Char) : Option Nat :=
  if '0' ≤ c ∧ c ≤ '9' then some (c.toNat - '0'.toNat)
  else if 'a' ≤ c ∧ c ≤ 'f' then some (c.toNat - 'a'.toNat + 10)
  else if 'A' ≤ c ∧ c ≤ 'F' then some (c.toNat - 'A'.toNat + 10)
  else none

/-- The 16-bit unit of an escape: four hexadecimal digits. The text ends too early if fewer than
four bytes are left, whatever they are. -/
def unit (cs : List Char) : Result Nat cs.length :=
  if (String.ofList (cs.take 4)).utf8ByteSize < 4 then .error .cutShort
  else match cs with
    | a :: b :: c :: d :: rest =>
      match hexDigit? a, hexDigit? b, hexDigit? c, hexDigit? d with
      | some a, some b, some c, some d =>
        .ok (Parsed.stay (((a * 16 + b) * 16 + c) * 16 + d) rest).widen.widen.widen
      | _, _, _, _ => .error .malformed
    | _ => .error .malformed

def plainEscape? : Char → Option Char
  | '"' => some '"'
  | '\\' => some '\\'
  | '/' => some '/'
  | 'b' => some '\x08'
  | 'f' => some '\x0c'
  | 'n' => some '\n'
  | 'r' => some '\r'
  | 't' => some '\t'
  | _ => none

def lowSurrogate : (cs : List Char) → Result Nat cs.length
  | '\\' :: 'u' :: rest => do
    let second ← unit rest
    if second.value < 0xDC00 ∨ 0xDFFF < second.value then throw .malformed
    return second.widen.widen
  | [] | ['\\'] => .error .cutShort
  | _ => .error .malformed

/-- The character of an escape, behind its backslash. Two surrogates make one character, and
neither may stand alone. -/
def escape : (cs : List Char) → Result Char cs.length
  | [] => .error .cutShort
  | 'u' :: rest => do
    let first ← unit rest
    if 0xDC00 ≤ first.value ∧ first.value ≤ 0xDFFF then throw .malformed
    if first.value < 0xD800 ∨ 0xDBFF < first.value then return (first.map Char.ofNat).widen
    let second ← lowSurrogate first.rest
    let code := (first.value - 0xD800) * 0x400 + (second.value - 0xDC00) + 0x10000
    return ((first.andThen second).map fun _ => Char.ofNat code).widen
  | c :: rest =>
    match plainEscape? c with
    | some plain => .ok (.stay plain rest)
    | none => .error .malformed

def textBody : (cs : List Char) → Result (List Char) cs.length
  | [] => .error .cutShort
  | c :: rest =>
    if c = '"' then .ok (.stay [] rest)
    else if c = '\\' then do
      let escaped ← escape rest
      let more ← textBody escaped.rest
      return ((escaped.andThen more).map (escaped.value :: ·)).widen
    else if c < ' ' then .error .malformed
    else do
      let more ← textBody rest
      return (more.map (c :: ·)).widen
termination_by cs => cs.length
decreasing_by
  · exact escaped.widen.shorter
  · exact Nat.lt_succ_self _

/-- Passes a text up to its closing quote; units of escapes need not be paired. -/
def skimText : (cs : List Char) → Result Unit cs.length
  | [] => .error .cutShort
  | '"' :: rest => .ok (.stay () rest)
  | ['\\'] => .error .cutShort
  | '\\' :: 'u' :: rest => do
    let code ← unit rest
    let more ← skimText code.rest
    return (code.andThen more).widen.widen
  | '\\' :: c :: rest => do
    if (plainEscape? c).isNone then throw .malformed
    let more ← skimText rest
    return more.widen.widen
  | c :: rest => do
    if c < ' ' then throw .malformed
    let more ← skimText rest
    return more.widen
termination_by cs => cs.length
decreasing_by
  · exact code.widen.widen.shorter
  · exact (Parsed.stay () rest).widen.shorter
  · exact (Parsed.stay () rest).shorter

/-! ## Words and numbers -/

def word : List Char → (cs : List Char) → Result Unit (cs.length + 1)
  | [], cs => .ok (.stay () cs)
  | _ :: _, [] => .error .cutShort
  | expected :: more, c :: rest =>
    if c = expected then Parsed.widen <$> word more rest else .error .malformed

/-- A number: a whole one in the range of 64 bits, or any other as the nearest double. -/
inductive Number where
  | whole (n : Int)
  | real (x : Float)

def digits (atEnd : Flaw) : (cs : List Char) → Result (List Char) cs.length
  | [] => .error atEnd
  | c :: rest =>
    if isDigit c then .ok ((Parsed.span isDigit rest).map (c :: ·)) else .error .malformed

structure Numeral where
  negative : Bool
  whole : List Char
  fraction : Option (List Char)
  exponent : Option (Bool × List Char)

def hasLeadingZero : List Char → Bool
  | '0' :: _ :: _ => true
  | _ => false

def minus : (cs : List Char) → Parsed Char Bool (cs.length + 1)
  | '-' :: rest => (Parsed.stay true rest).widen
  | cs => .stay false cs

def fraction (atEnd : Flaw) : (cs : List Char) → Result (Option (List Char)) (cs.length + 1)
  | '.' :: rest => (fun p => (p.map some).widen.widen) <$> digits atEnd rest
  | cs => .ok (.stay none cs)

/-- Digits behind an optional sign, with `true` for a minus. -/
def signedDigits (atEnd : Flaw) : (cs : List Char) → Result (Bool × List Char) cs.length
  | '-' :: rest => (fun p => (p.map (true, ·)).widen) <$> digits atEnd rest
  | '+' :: rest => (fun p => (p.map (false, ·)).widen) <$> digits atEnd rest
  | cs => (·.map (false, ·)) <$> digits atEnd cs

def exponent (atEnd : Flaw) : (cs : List Char) → Result (Option (Bool × List Char)) (cs.length + 1)
  | c :: rest =>
    if c = 'e' ∨ c = 'E' then (fun p => (p.map some).widen.widen) <$> signedDigits atEnd rest
    else .ok (.stay none (c :: rest))
  | [] => .ok (.stay none [])

/-- A number as written; `atEnd` is the flaw if the text ends inside it. -/
def numeral (atEnd : Flaw) (cs : List Char) : Result Numeral cs.length := do
  let sign := minus cs
  let whole ← digits atEnd sign.rest
  if hasLeadingZero whole.value then throw .malformed
  let fraction ← fraction atEnd whole.rest
  let exponent ← exponent atEnd fraction.rest
  return (sign.andSurely (whole.andMaybe (fraction.andMaybe exponent))).map fun _ =>
    ⟨sign.value, whole.value, fraction.value, exponent.value⟩

def Numeral.value (n : Numeral) : Except Flaw Number :=
  let size := digitsValue n.whole
  let whole : Int := if n.negative then -size else size
  if n.fraction.isNone && n.exponent.isNone && decide (Int64.minValue.toInt ≤ whole) &&
      decide (whole < UInt64.size) && !(n.negative && size == 0) then
    .ok (.whole whole)
  else
    let fraction := n.fraction.getD []
    let shift : Int := match n.exponent with
      | none => 0
      | some (true, ds) => -digitsValue ds
      | some (false, ds) => digitsValue ds
    let x := Decimal.Numeral.toFloat ⟨digitsValue (n.whole ++ fraction), shift - fraction.length⟩
    if x.isInf then .error .malformed else .ok (.real (if n.negative then -x else x))

def number (cs : List Char) : Result Number cs.length := do
  let read ← numeral .cutShort cs
  let value ← read.value.value
  return read.map fun _ => value

/-! ## Values of the wrong shape -/

/-- The flaw of a value whose shape is not the expected one: `misfit`, unless the value is already
broken where its shape shows. -/
def misfit (cs : List Char) : Flaw :=
  let flaw {α : Type} {limit : Nat} (r : Result α limit) : Flaw :=
    match r with
    | .error flaw => flaw
    | .ok _ => .misfit
  match next cs with
  | .error flaw => flaw
  | .ok ⟨c, rest, _⟩ =>
    if c = 'n' then flaw (word "ull".toList rest)
    else if c = 't' then flaw (word "rue".toList rest)
    else if c = 'f' then flaw (word "alse".toList rest)
    else if c = '-' || isDigit c then flaw (spaced number cs)
    else if c = '"' then flaw (textBody rest)
    else if c = '[' || c = '\x7b' then .misfit
    else .malformed

/-! ## Skimming -/

inductive Bracket where
  | list
  | object
deriving DecidableEq

inductive Skim where
  | value
  | entry
  | more

def skimScalar (cs : List Char) : Result Unit cs.length := do
  let c ← next cs
  if c.value = 'n' then return c.andMaybe (← word "ull".toList c.rest)
  else if c.value = 't' then return c.andMaybe (← word "rue".toList c.rest)
  else if c.value = 'f' then return c.andMaybe (← word "alse".toList c.rest)
  else if c.value = '"' then return c.andThen (← skimText c.rest)
  else if c.value = '-' || isDigit c.value then
    return (← spaced (numeral .malformed) cs).map fun _ => ()
  else throw .malformed

/-- Passes one value, inside the brackets `inside` (the innermost first), up to the end of the
outermost of them. -/
def skim (expected : Skim) (inside : List Bracket) (cs : List Char) :
    Result Unit (cs.length + 1) := do
  match expected, inside with
  | .more, [] => return .stay () cs
  | .more, bracket :: outer =>
    let c ← next cs
    if c.value = ',' then
      let rest ← skim (if bracket = .list then .value else .entry) (bracket :: outer) c.rest
      return (c.andMaybe rest).widen
    else if c.value = (if bracket = .list then ']' else '\x7d') then
      let rest ← skim .more outer c.rest
      return (c.andMaybe rest).widen
    else throw .malformed
  | .entry, _ =>
    let quote ← next cs
    if quote.value ≠ '"' then throw .malformed
    let key ← skimText quote.rest
    let colon ← next key.rest
    if colon.value ≠ ':' then throw .malformed
    let rest ← skim .value inside colon.rest
    return (quote.andThen (key.andThen (colon.andMaybe rest))).widen
  | .value, _ =>
    let c ← next cs
    if c.value = '[' || c.value = '\x7b' then
      let bracket := if c.value = '[' then Bracket.list else .object
      -- An empty list or object closes at once; otherwise its first value or entry follows.
      let peek ← next c.rest
      if peek.value = (if bracket = .list then ']' else '\x7d') then
        let rest ← skim .more inside peek.rest
        return (c.andThen (peek.andMaybe rest)).widen
      else
        let rest ← skim (if bracket = .list then .value else .entry) (bracket :: inside) c.rest
        return (c.andMaybe rest).widen
    else
      let passed ← skimScalar cs
      let rest ← skim .more inside passed.rest
      return (passed.andMaybe rest).widen
termination_by cs.length
decreasing_by
  · exact c.shorter
  · exact c.shorter
  · exact (quote.andThen (key.andThen colon)).shorter
  · exact (c.andThen peek).shorter
  · exact c.shorter
  · exact passed.shorter

end LootFilter.Json
