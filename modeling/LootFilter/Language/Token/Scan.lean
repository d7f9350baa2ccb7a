import LootFilter.Decimal.Digits
import LootFilter.Decimal.Shortest
import LootFilter.Progress
import LootFilter.Language.CompileError
import LootFilter.Language.Token
import LootFilter.Text.Blank
import LootFilter.Text.Letter

/-!
# Cutting a rule into tokens

Tokens are taken from the front of the text, each as long as possible, and white space between them
is passed over.
-/

namespace LootFilter.Lexeme

open CompileError (Cause)
open Text (isAlphabetic isAlphanumeric isBlank isDigit)

/-- What is read behind the first character of a lexeme. -/
abbrev Scan (cs : List Char) := Except Cause (Parsed Char Lexeme (cs.length + 1))

/-! ## Words and numbers -/

def startsWord (c : Char) : Bool := isAlphabetic c || c == '_'

def continuesWord (c : Char) : Bool := isAlphanumeric c || c == '_'

def scanWord (c : Char) (cs : List Char) : Scan cs :=
  .ok ((Parsed.span continuesWord cs).map fun more => .word (String.ofList (c :: more)))

/-- The digits of a fraction; a point belongs to the number only if a digit follows it. -/
def fraction : (cs : List Char) → Parsed Char (List Char) (cs.length + 1)
  | '.' :: d :: cs =>
    if isDigit d then ((Parsed.span isDigit cs).map (d :: ·)).widen.widen
    else .stay [] ('.' :: d :: cs)
  | cs => .stay [] cs

def exponentSign : (cs : List Char) → Parsed Char Bool (cs.length + 1)
  | '-' :: cs => (Parsed.stay true cs).widen
  | '+' :: cs => (Parsed.stay false cs).widen
  | cs => .stay false cs

/-- The power of ten of an exponent; the letter and the sign belong to the number only if a digit
follows them. -/
def exponent : (cs : List Char) → Parsed Char (Option Int) (cs.length + 1)
  | [] => .stay none []
  | e :: cs =>
    let sign := exponentSign cs
    if (e = 'e' ∨ e = 'E') ∧ sign.rest.head?.any isDigit then
      let power := sign.andMaybe (Parsed.span isDigit sign.rest)
      (power.map fun ds => some
        (if sign.value then -Decimal.digitsValue ds else Decimal.digitsValue ds : Int)).widen
    else .stay none (e :: cs)

def isRealSuffix (c : Char) : Bool := "fFdDmM".toList.contains c

def isIntSuffix (c : Char) : Bool := c == 'l' || c == 'L'

def suffix : (cs : List Char) → Parsed Char Bool (cs.length + 1)
  | c :: cs =>
    if isRealSuffix c then (Parsed.stay true cs).widen
    else if isIntSuffix c then (Parsed.stay false cs).widen
    else .stay false (c :: cs)
  | [] => .stay false []

/-- The least whole number that is too large to be written. -/
def intLimit : Nat := 0x8000000000000000

def scanNumber (c : Char) (cs : List Char) : Scan cs :=
  let whole := (Parsed.span isDigit cs).map (c :: ·)
  let fraction := fraction whole.rest
  let power := exponent fraction.rest
  let suffix := suffix power.rest
  let read := whole.andMaybe (fraction.andMaybe (power.andMaybe suffix))
  if suffix.value || !fraction.value.isEmpty || power.value.isSome then
    let x : Decimal.Numeral :=
      ⟨Decimal.digitsValue (whole.value ++ fraction.value),
        power.value.getD 0 - fraction.value.length⟩
    .ok (read.map fun _ => .real x.toFloat)
  else
    let n := Decimal.digitsValue whole.value
    if n < intLimit then .ok (read.map fun _ => .int n)
    else .error (.invalidInt (String.ofList whole.value))

/-! ## Texts -/

def unescape : Char → Char
  | 'n' => '\n'
  | 't' => '\t'
  | 'r' => '\r'
  | '0' => '\x00'
  | c => c

/-- The characters of a text up to its closing quote. A quote may be written twice to stand in the
text, or behind a backslash. -/
def scanTextBody (quote : Char) : (cs : List Char) →
    Except Cause (Parsed Char (List Char) cs.length)
  | [] => .error .unterminatedText
  | ['\\'] => .error .unterminatedText
  | '\\' :: c :: cs =>
    (fun p => (p.map (unescape c :: ·)).widen.widen) <$> scanTextBody quote cs
  | c :: cs =>
    if c = quote then
      match cs with
      | d :: ds =>
        if d = quote then (fun p => (p.map (quote :: ·)).widen.widen) <$> scanTextBody quote ds
        else .ok (.stay [] (d :: ds))
      | [] => .ok (.stay [] [])
    else (fun p => (p.map (c :: ·)).widen) <$> scanTextBody quote cs

def scanText (quote : Char) (cs : List Char) : Scan cs :=
  (fun p => (p.map fun s => .text (String.ofList s)).widen) <$> scanTextBody quote cs

/-! ## Symbols -/

def symbolOfTwo? : Char → Char → Option Symbol
  | '&', '&' => some .ampersands
  | '|', '|' => some .bars
  | '=', '=' => some .equal
  | '=', '>' => some .arrow
  | '!', '=' => some .notEqual
  | '<', '>' => some .notEqual
  | '<', '=' => some .lessEqual
  | '>', '=' => some .greaterEqual
  | _, _ => none

def symbolOfOne? : Char → Option Symbol
  | '=' => some .equal
  | '!' => some .bang
  | '<' => some .less
  | '>' => some .greater
  | '(' => some .leftParen
  | ')' => some .rightParen
  | '[' => some .leftBracket
  | ']' => some .rightBracket
  | '\x7b' => some .leftBrace
  | '\x7d' => some .rightBrace
  | ',' => some .comma
  | '.' => some .dot
  | '?' => some .question
  | ':' => some .colon
  | '+' => some .plus
  | '-' => some .minus
  | '*' => some .star
  | '/' => some .slash
  | '%' => some .percent
  | _ => none

def scanSymbol (c : Char) : (cs : List Char) → Scan cs
  | [] =>
    match symbolOfOne? c with
    | some s => .ok (.stay (.symbol s) [])
    | none => .error (.strayCharacter c)
  | d :: cs =>
    match symbolOfTwo? c d, symbolOfOne? c with
    | some s, _ => .ok (Parsed.stay (.symbol s) cs).widen
    | none, some s => .ok (.stay (.symbol s) (d :: cs))
    | none, none => .error (.strayCharacter c)

/-! ## Tokens -/

def scan (c : Char) (cs : List Char) : Scan cs :=
  if isDigit c then scanNumber c cs
  else if c = '"' ∨ c = '\'' then scanText c cs
  else if startsWord c then scanWord c cs
  else scanSymbol c cs

end Lexeme

namespace Token

/-- The tokens of the characters `cs`, which stand behind `pos` others. -/
def ofCharsAt (pos : Nat) : (cs : List Char) → Except CompileError (List Token)
  | [] => .ok []
  | c :: cs =>
    if Text.isBlank c then ofCharsAt (pos + 1) cs
    else
      match Lexeme.scan c cs with
      | .error cause => .error ⟨cause, pos⟩
      | .ok read =>
        let width := cs.length + 1 - read.rest.length
        (⟨read.value, pos⟩ :: ·) <$> ofCharsAt (pos + width) read.rest
termination_by cs => cs.length
decreasing_by
  · exact Nat.lt_succ_self _
  · exact read.shorter

def ofText (text : String) : Except CompileError (List Token) := ofCharsAt 0 text.toList

end Token

end LootFilter
