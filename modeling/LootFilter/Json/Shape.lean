import LootFilter.Json.Reader

/-!
# Readers by shape

Readers for the shapes that records are made of: scalars, options, lists, pairs, choices by name,
and records. A record is an object with known fields in any order, or a list of its fields in their
order. Fields may be missing unless they are required, unknown ones are skimmed, and none may stand
twice.
-/

namespace LootFilter.Json

open Text (isDigit)

variable {α β σ : Type}

/-! ## Scalars -/

def text : Reader String := fun _ cs => do
  let c ← next cs
  if c.value ≠ '"' then throw (misfit cs)
  let body ← textBody c.rest
  return (c.andThen body).map String.ofList

def bool : Reader Bool := fun _ cs => do
  let c ← next cs
  if c.value = 't' then
    return (c.andMaybe (← word "rue".toList c.rest)).map fun _ => true
  else if c.value = 'f' then
    return (c.andMaybe (← word "alse".toList c.rest)).map fun _ => false
  else throw (misfit cs)

def numberOf (accept : Number → Option α) : Reader α := fun _ cs => do
  let c ← next cs
  if c.value = '-' || isDigit c.value then
    let read ← spaced number cs
    match accept read.value with
    | some value => return read.map fun _ => value
    | none => throw .misfit
  else throw (misfit cs)

def int64 : Reader Int64 := numberOf fun
  | .whole n => if n ≤ Int64.maxValue.toInt then some (Int64.ofInt n) else none
  | .real _ => none

def nat64 : Reader Nat := numberOf fun
  | .whole n => if 0 ≤ n then some n.toNat else none
  | .real _ => none

/-- A double; whole numbers are rounded to one. -/
def real : Reader Float := numberOf fun
  | .whole n => some (Float.ofInt n)
  | .real x => some x

def optional (some : Reader α) : Reader (Option α) := fun depth cs => do
  let c ← next cs
  if c.value = 'n' then
    return (c.andMaybe (← word "ull".toList c.rest)).map fun _ => none
  else return (← some depth cs).map Option.some

/-! ## Lists and objects -/

def open? (depth : Nat) : Except Flaw Nat :=
  match depth with
  | 0 => .error .malformed
  | left + 1 => .ok left

/-- Whether another element follows: if so, the rest starts with it, behind its comma; if not, the
rest follows the closing bracket. -/
def more (close : Char) (first : Bool) (cs : List Char) : Result Bool (cs.length + 1) := do
  let c ← next cs
  if c.value = close then
    return (c.map fun _ => false).widen
  else if first then
    return .stay true cs
  else if c.value = ',' then
    if (← next c.rest).value = close then throw .malformed
    return (c.map fun _ => true).widen
  else throw .malformed

def elements (item : Reader α) (depth : Nat) (first : Bool) (cs : List Char) :
    Result (List α) (cs.length + 1) := do
  let following ← more ']' first cs
  if following.value then
    let head ← item depth following.rest
    let tail ← elements item depth false head.rest
    return (following.andSurely (head.andMaybe tail)).widen.map (head.value :: ·)
  else return following.map fun _ => []
termination_by cs.length
decreasing_by exact (following.andSurely head).shorter

def listOf (item : Reader α) : Reader (List α) := fun depth cs => do
  let c ← next cs
  if c.value ≠ '[' then throw (misfit cs)
  let items ← elements item (← open? depth) true c.rest
  return c.andMaybe items

def close (cs : List Char) : Result Unit cs.length := do
  let c ← next cs
  if c.value = ']' then return c.map fun _ => () else throw .malformed

def element (item : Reader α) (depth : Nat) (first : Bool) (cs : List Char) :
    Result α cs.length := do
  let following ← more ']' first cs
  if !following.value then throw .misfit
  return following.andSurely (← item depth following.rest)

def pairOf (left : Reader α) (right : Reader β) : Reader (α × β) := fun depth cs => do
  let c ← next cs
  if c.value ≠ '[' then throw (misfit cs)
  let depth ← open? depth
  let a ← element left depth true c.rest
  let b ← element right depth false a.rest
  let closed ← close b.rest
  return (c.andThen (a.andThen (b.andThen closed))).map fun _ => (a.value, b.value)

def memberKey (cs : List Char) : Result String cs.length := do
  let quote ← next cs
  if quote.value ≠ '"' then throw .malformed
  return (quote.andThen (← textBody quote.rest)).map String.ofList

def colon (cs : List Char) : Result Unit cs.length := do
  let c ← next cs
  if c.value = ':' then return c.map fun _ => () else throw .malformed

/-- The members of an object behind its opening bracket. For each key, `field` finds the reader that
adds the member's value to the state. -/
def members (field : String → σ → Except Flaw (Reader σ)) (depth : Nat) (first : Bool) (s : σ)
    (cs : List Char) : Result σ (cs.length + 1) := do
  let following ← more '\x7d' first cs
  if following.value then
    let key ← memberKey following.rest
    let read ← field key.value s
    let colon ← colon key.rest
    let added ← read depth colon.rest
    let rest ← members field depth false added.value added.rest
    let member := key.andThen (colon.andThen added)
    return (following.andSurely (member.andMaybe rest)).widen
  else return following.map fun _ => s
termination_by cs.length
decreasing_by exact (following.andSurely (key.andThen (colon.andThen added))).shorter

def tableOf (empty : σ) (insert : String → α → σ → σ) (item : Reader α) : Reader σ :=
  fun depth cs => do
    let c ← next cs
    if c.value ≠ '\x7b' then throw (misfit cs)
    let member (key : String) (s : σ) : Except Flaw (Reader σ) :=
      .ok fun depth cs => (·.map (insert key · s)) <$> item depth cs
    let table ← members member (← open? depth) true empty c.rest
    return c.andMaybe table

/-! ## Choices and records -/

/-- One of a few names: as a text, or as an object with the name as its only key and `null` as its
value. -/
def choice (choices : List (String × α)) : Reader α := fun depth cs => do
  let pick (name : String) : Except Flaw α :=
    match choices.lookup name with
    | some value => .ok value
    | none => .error .misfit
  let c ← next cs
  if c.value = '"' then
    let name ← text depth cs
    let value ← pick name.value
    return name.map fun _ => value
  else if c.value = '\x7b' then
    discard <| open? depth
    let name ← memberKey c.rest
    let value ← pick name.value
    let colon ← colon name.rest
    let n ← next colon.rest
    if n.value ≠ 'n' then throw (misfit colon.rest)
    let null ← word "ull".toList n.rest
    let last ← next null.rest
    if last.value ≠ '\x7d' then throw .malformed
    let entry := name.andThen (colon.andThen (n.andMaybe (null.andSurely last).widen))
    return (c.andThen entry).map fun _ => value
  else throw .malformed

structure Property (σ : Type) where
  key : String
  required : Bool
  read : σ → Reader σ

namespace Property

def of (key : String) (reader : Reader α) (set : α → σ → σ) : Property σ :=
  ⟨key, false, fun s depth cs => (·.map (set · s)) <$> reader depth cs⟩

def must (key : String) (reader : Reader α) (set : α → σ → σ) : Property σ :=
  { of key reader set with required := true }

end Property

/-- The fields of a record in their order, behind the opening bracket of a list. -/
def inOrder (depth : Nat) : List (Property σ) → (first : Bool) → σ → (cs : List Char) →
    Result σ (cs.length + 1)
  | [], _, s, cs => (fun closed => (closed.map fun _ => s).widen) <$> close cs
  | field :: fields, first, s, cs => do
    let following ← more ']' first cs
    if following.value then
      let added ← field.read s depth following.rest
      let rest ← inOrder depth fields false added.value added.rest
      return (following.andSurely (added.andMaybe rest)).widen
    else if (field :: fields).any Property.required then throw .misfit
    else return following.map fun _ => s

def memberOf (fields : List (Property σ)) (key : String) :
    σ × List String → Except Flaw (Reader (σ × List String)) := fun (s, seen) =>
  match fields.find? (·.key = key) with
  | none => .ok fun _ cs => do
    let passed ← skim .value [] cs
    -- A skimmed value has at least one character.
    if h : passed.rest.length < cs.length then return ⟨(s, seen), passed.rest, h⟩
    else throw .malformed
  | some field =>
    if seen.contains key then .error .misfit
    else .ok fun depth cs => (·.map fun s => (s, key :: seen)) <$> field.read s depth cs

def record (fields : List (Property σ)) (missing : σ) : Reader σ := fun depth cs => do
  let c ← next cs
  if c.value = '[' then
    let read ← inOrder (← open? depth) fields true missing c.rest
    return c.andMaybe read
  else if c.value = '\x7b' then
    let read ← members (memberOf fields) (← open? depth) true (missing, []) c.rest
    let (s, seen) := read.value
    if fields.any fun field => field.required && !seen.contains field.key then throw .misfit
    return (c.andMaybe read).map fun _ => s
  else throw (misfit cs)

/-- Reads a whole text, which may only have white space behind the value. -/
def readAll (reader : Reader α) (s : String) : Except Flaw α := do
  let read ← reader maxDepth s.toList
  if read.rest.all isSpace then return read.value else throw .malformed

end LootFilter.Json
