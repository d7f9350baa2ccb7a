import LootFilter.Language.Token.Scan
import LootFilter.Proofs.Text.Blank

/-!
# Where lexemes end

Each lexeme is read as far as possible, and to know where it ends up to three characters behind it
are looked at. None of them is part of the lexeme if it is white space, so what stands behind white
space never matters.
-/

namespace LootFilter

open Text (isBlank isDigit)

/-- What was read and what is left. -/
def Parsed.pair {τ α : Type} {n : Nat} (p : Parsed τ α n) : α × List τ := (p.value, p.rest)

namespace Lexeme

open CompileError (Cause)

/-! ## White space ends everything -/

/-- Whether a character can stand in a lexeme other than as the first one or between quotes. -/
def goesOn (c : Char) : Bool :=
  isDigit c || continuesWord c || isRealSuffix c || isIntSuffix c ||
    "+-.eE\"'&|=>".toList.contains c

section blank

variable {c d : Char} (blank : isBlank d)

include blank

theorem ends_of_isBlank : isDigit d = false ∧ continuesWord d = false ∧ isRealSuffix d = false ∧
    isIntSuffix d = false ∧ "+-.eE\"'&|=>".toList.contains d = false := by
  have fails := Text.fails_of_isBlank (p := goesOn) (by decide +kernel) blank
  simpa only [goesOn, Bool.or_eq_false_iff, and_assoc] using fails

theorem isDigit_of_isBlank : isDigit d = false := (ends_of_isBlank blank).1

theorem continuesWord_of_isBlank : continuesWord d = false := (ends_of_isBlank blank).2.1

theorem not_mem_of_isBlank : d ∉ "+-.eE\"'&|=>".toList := by
  have fails := (ends_of_isBlank blank).2.2.2.2
  exact fun mem => Bool.false_ne_true (fails.symm.trans (List.contains_iff_mem.2 mem))

theorem symbolOfTwo?_of_isBlank : symbolOfTwo? c d = none := by
  have other := not_mem_of_isBlank blank
  unfold symbolOfTwo?
  split <;> first | rfl | exact absurd (by decide) other

end blank

/-- Whether the characters are none or begin with white space. -/
def Opens (tail : List Char) : Prop := ∀ c ∈ tail.head?, isBlank c

/-- The reading with `tail` behind what is left. -/
def before {α : Type} (tail : List Char) (read : α × List Char) : α × List Char :=
  (read.1, read.2 ++ tail)

/-! ## Parts of numbers -/

theorem fraction_stay {cs : List Char} (h : ∀ d ds, cs = '.' :: d :: ds → isDigit d = false) :
    (fraction cs).pair = ([], cs) := by
  unfold fraction
  split
  · rename_i d ds
    rw [if_neg (by simp [h d ds rfl])]
    rfl
  · rfl

theorem fraction_digits {d : Char} {cs : List Char} (digit : isDigit d) :
    (fraction ('.' :: d :: cs)).pair = (d :: cs.takeWhile isDigit, cs.dropWhile isDigit) := by
  rw [fraction, if_pos digit]
  rfl

theorem exponentSign_cons (c : Char) (cs : List Char) : (exponentSign (c :: cs)).pair =
    if c = '-' then (true, cs) else if c = '+' then (false, cs) else (false, c :: cs) := by
  by_cases minus : c = '-'
  · subst minus
    rfl
  · by_cases plus : c = '+'
    · subst plus
      rfl
    · rw [if_neg minus, if_neg plus, exponentSign]
      · rfl
      · exact fun _ same => minus (List.cons.inj same).1
      · exact fun _ same => plus (List.cons.inj same).1

theorem exponent_cons (e : Char) (cs : List Char) : (exponent (e :: cs)).pair =
    let sign := (exponentSign cs).pair
    if (e = 'e' ∨ e = 'E') ∧ sign.2.head?.any isDigit then
      let n : Int := Decimal.digitsValue (sign.2.takeWhile isDigit)
      (some (if sign.1 then -n else n), sign.2.dropWhile isDigit)
    else (none, e :: cs) := by
  rw [exponent]
  dsimp only [Parsed.pair]
  split <;> rfl

theorem suffix_cons (c : Char) (cs : List Char) : (suffix (c :: cs)).pair =
    if isRealSuffix c then (true, cs) else if isIntSuffix c then (false, cs) else (false, c :: cs) := by
  rw [suffix]
  split
  · rfl
  · split <;> rfl

/-- The number with these digits, which is real if it says so or has a part that makes it so. -/
def numeral (whole fraction : List Char) (power : Option Int) (real : Bool) :
    Except Cause Lexeme :=
  if real || !fraction.isEmpty || power.isSome then
    let x : Decimal.Numeral :=
      ⟨Decimal.digitsValue (whole ++ fraction), power.getD 0 - fraction.length⟩
    .ok (.real x.toFloat)
  else if Decimal.digitsValue whole < intLimit then .ok (.int (Decimal.digitsValue whole))
  else .error (.invalidInt (String.ofList whole))

theorem scanNumber_eq (c : Char) (cs : List Char) : Parsed.pair <$> scanNumber c cs =
    let whole := (Parsed.span isDigit cs).pair
    let fraction := (fraction whole.2).pair
    let power := (exponent fraction.2).pair
    let suffix := (suffix power.2).pair
    (·, suffix.2) <$> numeral (c :: whole.1) fraction.1 power.1 suffix.1 := by
  unfold scanNumber numeral
  dsimp only [Parsed.pair, Parsed.map]
  split
  · rfl
  · split <;> rfl

/-! ## What stands behind a lexeme -/

section tail

variable {tail : List Char} (opens : Opens tail)

include opens

theorem span_before {p : Char → Bool} (stops : ∀ c, isBlank c → p c = false) (cs : List Char) :
    (Parsed.span p (cs ++ tail)).pair = before tail (Parsed.span p cs).pair := by
  change ((cs ++ tail).takeWhile p, (cs ++ tail).dropWhile p) =
    (cs.takeWhile p, cs.dropWhile p ++ tail)
  induction cs with
  | nil =>
    cases tail with
    | nil => rfl
    | cons c tail =>
      have stop := stops c (opens c rfl)
      simp [stop]
  | cons c cs ih =>
    obtain ⟨taken, left⟩ := Prod.mk.inj ih
    cases more : p c <;> simp [more, taken, left]

theorem fraction_before (cs : List Char) :
    (fraction (cs ++ tail)).pair = before tail (fraction cs).pair := by
  by_cases digits : ∃ d ds, cs = '.' :: d :: ds ∧ isDigit d
  · obtain ⟨d, ds, rfl, digit⟩ := digits
    have span := span_before opens (fun _ => isDigit_of_isBlank) ds
    obtain ⟨taken, left⟩ := Prod.mk.inj span
    simp only [List.cons_append, fraction_digits digit, before]
    exact Prod.ext (congrArg (d :: ·) taken) left
  · have stay : ∀ d ds, cs = '.' :: d :: ds → isDigit d = false := fun d ds same =>
      Bool.eq_false_iff.2 fun digit => digits ⟨d, ds, same, digit⟩
    rw [fraction_stay stay, fraction_stay]
    · rfl
    intro d ds same
    rcases cs with _ | ⟨c, _ | ⟨e, cs⟩⟩
    · have point : tail = '.' :: d :: ds := same
      exact absurd (by decide) (not_mem_of_isBlank (opens '.' (by rw [point]; rfl)))
    · obtain ⟨-, rfl⟩ := List.cons.inj same
      exact isDigit_of_isBlank (opens d rfl)
    · obtain ⟨rfl, rest⟩ := List.cons.inj same
      obtain ⟨rfl, -⟩ := List.cons.inj rest
      exact stay e cs rfl

theorem exponentSign_before (cs : List Char) :
    (exponentSign (cs ++ tail)).pair = before tail (exponentSign cs).pair := by
  cases cs with
  | nil =>
    cases tail with
    | nil => rfl
    | cons c tail =>
      have other := not_mem_of_isBlank (opens c rfl)
      rw [List.nil_append, exponentSign_cons, if_neg, if_neg]
      · rfl
      · rintro rfl
        exact absurd (by decide) other
      · rintro rfl
        exact absurd (by decide) other
  | cons c cs =>
    rw [List.cons_append, exponentSign_cons, exponentSign_cons]
    split
    · rfl
    · split <;> rfl

theorem any_isDigit (cs : List Char) : (cs ++ tail).head?.any isDigit = cs.head?.any isDigit := by
  cases cs with
  | nil =>
    cases tail with
    | nil => rfl
    | cons c tail => exact isDigit_of_isBlank (opens c rfl)
  | cons c cs => rfl

theorem exponent_before (cs : List Char) :
    (exponent (cs ++ tail)).pair = before tail (exponent cs).pair := by
  cases cs with
  | nil =>
    cases tail with
    | nil => rfl
    | cons c tail =>
      have other := not_mem_of_isBlank (opens c rfl)
      rw [List.nil_append, exponent_cons, if_neg]
      · rfl
      rintro ⟨rfl | rfl, -⟩ <;> exact absurd (by decide) other
  | cons e cs =>
    rw [List.cons_append, exponent_cons, exponent_cons, exponentSign_before opens]
    generalize (exponentSign cs).pair = sign
    obtain ⟨negative, cs'⟩ := sign
    have span := span_before opens (fun _ => isDigit_of_isBlank) cs'
    obtain ⟨taken, left⟩ := Prod.mk.inj span
    simp only [before, any_isDigit opens]
    split
    · change (cs' ++ tail).takeWhile isDigit = cs'.takeWhile isDigit at taken
      change (cs' ++ tail).dropWhile isDigit = cs'.dropWhile isDigit ++ tail at left
      rw [taken, left]
      rfl
    · rfl

theorem suffix_before (cs : List Char) :
    (suffix (cs ++ tail)).pair = before tail (suffix cs).pair := by
  cases cs with
  | nil =>
    cases tail with
    | nil => rfl
    | cons c tail =>
      obtain ⟨-, -, real, whole, -⟩ := ends_of_isBlank (opens c rfl)
      rw [List.nil_append, suffix_cons, real, whole]
      rfl
  | cons c cs =>
    rw [List.cons_append, suffix_cons, suffix_cons]
    split
    · rfl
    · split <;> rfl

theorem scanNumber_before (c : Char) (cs : List Char) :
    Parsed.pair <$> scanNumber c (cs ++ tail) = before tail <$> Parsed.pair <$> scanNumber c cs := by
  rw [scanNumber_eq, scanNumber_eq]
  dsimp only
  rw [span_before opens fun _ => isDigit_of_isBlank]
  generalize (Parsed.span isDigit cs).pair = whole
  dsimp only [before]
  rw [fraction_before opens]
  generalize (fraction whole.2).pair = fraction
  dsimp only [before]
  rw [exponent_before opens]
  generalize (exponent fraction.2).pair = power
  dsimp only [before]
  rw [suffix_before opens]
  generalize (suffix power.2).pair = suffix
  rw [Functor.map_map]
  rfl

end tail

/-! ## Texts -/

section texts

variable {quote c d : Char} {cs value rest tail : List Char}

def cutText (quote : Char) (cs : List Char) : Except Cause (List Char × List Char) :=
  Parsed.pair <$> scanTextBody quote cs

theorem cutText_backslash :
    cutText quote ('\\' :: c :: cs) = Prod.map (unescape c :: ·) id <$> cutText quote cs := by
  rw [cutText, scanTextBody, cutText, Functor.map_map, Functor.map_map]
  rfl

/-- A quote ends the text if it is not written twice. -/
theorem cutText_cons (plain : c ≠ '\\') : cutText quote (c :: cs) =
    if c = quote then
      if cs.head? = some quote then Prod.map (quote :: ·) id <$> cutText quote cs.tail
      else .ok ([], cs)
    else Prod.map (c :: ·) id <$> cutText quote cs := by
  cases cs with
  | nil =>
    rw [cutText, scanTextBody]
    · split
      · rfl
      · rw [cutText, Functor.map_map, Functor.map_map]
        rfl
    · exact fun same => absurd same plain
    · exact fun _ _ same => absurd same plain
  | cons d cs =>
    rw [cutText, scanTextBody]
    · split
      · simp only [List.head?_cons, List.tail_cons, Option.some_inj]
        split
        · rw [cutText, Functor.map_map, Functor.map_map]
          rfl
        · rfl
      · rw [cutText, Functor.map_map, Functor.map_map]
        rfl
    · exact fun same => absurd same plain
    · exact fun _ _ same => absurd same plain

theorem cutText_raw (plain : c ≠ '\\') (other : c ≠ quote) :
    cutText quote (c :: cs) = Prod.map (c :: ·) id <$> cutText quote cs := by
  rw [cutText_cons plain, if_neg other]

section quotes

variable (plain : quote ≠ '\\')

include plain

theorem cutText_doubled :
    cutText quote (quote :: quote :: cs) = Prod.map (quote :: ·) id <$> cutText quote cs := by
  rw [cutText_cons plain, if_pos rfl, if_pos List.head?_cons, List.tail_cons]

theorem cutText_end (other : ∀ d ∈ cs.head?, d ≠ quote) :
    cutText quote (quote :: cs) = .ok ([], cs) := by
  have last : ¬cs.head? = some quote := fun same => other quote same rfl
  rw [cutText_cons plain, if_pos rfl, if_neg last]

end quotes

theorem cutText_before (opens : Opens tail) (visible : isBlank quote = false)
    (read : cutText quote cs = .ok (value, rest)) :
    cutText quote (cs ++ tail) = .ok (value, rest ++ tail) := by
  have further {f : List Char → List Char} {cs : List Char} {value : List Char}
      (ih : ∀ {value}, cutText quote cs = .ok (value, rest) →
        cutText quote (cs ++ tail) = .ok (value, rest ++ tail))
      (read : Prod.map f id <$> cutText quote cs = .ok (value, rest)) :
      Prod.map f id <$> cutText quote (cs ++ tail) = .ok (value, rest ++ tail) := by
    cases inner : cutText quote cs with
    | error cause =>
      rw [inner] at read
      cases read
    | ok found =>
      obtain ⟨value', rest'⟩ := found
      rw [inner] at read
      cases read
      rw [ih inner]
      rfl
  induction cs using scanTextBody.induct quote generalizing value with
  | case1 => cases read
  | case2 => cases read
  | case3 c cs ih =>
    rw [cutText_backslash] at read
    rw [List.cons_append, List.cons_append, cutText_backslash]
    exact further ih read
  | case4 cs _ plain ih =>
    have plain : quote ≠ '\\' := fun same => plain quote cs same rfl
    rw [cutText_doubled plain] at read
    rw [List.cons_append, List.cons_append, cutText_doubled plain]
    exact further ih read
  | case5 d cs other _ plain =>
    have plain : quote ≠ '\\' := fun same => plain d cs same rfl
    have ends : ∀ e ∈ (d :: cs).head?, e ≠ quote := by
      rintro _ ⟨⟩
      exact other
    rw [cutText_end plain ends] at read
    cases read
    exact cutText_end plain ends
  | case6 plain _ =>
    have plain : quote ≠ '\\' := fun same => plain same rfl
    have ends : ∀ e ∈ tail.head?, e ≠ quote := by
      intro e mem same
      have blank := opens e mem
      rw [same, visible] at blank
      cases blank
    have last : ∀ e ∈ ([] : List Char).head?, e ≠ quote := nofun
    rw [cutText_end plain last] at read
    cases read
    exact cutText_end plain ends
  | case7 c cs short long other ih =>
    have plain : c ≠ '\\' := by
      intro same
      cases cs with
      | nil => exact short same rfl
      | cons d cs => exact long d cs same rfl
    rw [cutText_raw plain other] at read
    rw [List.cons_append, cutText_raw plain other]
    exact further ih read

end texts

/-! ## Symbols -/

section symbols

variable {c d : Char} {cs tail : List Char}

def cutSymbol (c : Char) (cs : List Char) : Except Cause (Lexeme × List Char) :=
  Parsed.pair <$> scanSymbol c cs

theorem cutSymbol_one (single : ∀ d ∈ cs.head?, symbolOfTwo? c d = none) : cutSymbol c cs =
    match symbolOfOne? c with
    | some s => .ok (.symbol s, cs)
    | none => .error (.strayCharacter c) := by
  cases cs with
  | nil =>
    rw [cutSymbol, scanSymbol]
    cases symbolOfOne? c <;> rfl
  | cons d cs =>
    rw [cutSymbol, scanSymbol, single d rfl]
    cases symbolOfOne? c <;> rfl

theorem cutSymbol_two {s : Symbol} (two : symbolOfTwo? c d = some s) :
    cutSymbol c (d :: cs) = .ok (.symbol s, cs) := by
  rw [cutSymbol, scanSymbol, two]
  rfl

theorem cutSymbol_before (opens : Opens tail) :
    cutSymbol c (cs ++ tail) = before tail <$> cutSymbol c cs := by
  cases cs with
  | nil =>
    have last : ∀ d ∈ ([] : List Char).head?, symbolOfTwo? c d = none := nofun
    rw [List.nil_append, cutSymbol_one fun d mem => symbolOfTwo?_of_isBlank (opens d mem),
      cutSymbol_one last]
    cases symbolOfOne? c <;> rfl
  | cons d cs =>
    cases two : symbolOfTwo? c d with
    | some s =>
      rw [List.cons_append, cutSymbol_two two, cutSymbol_two two]
      rfl
    | none =>
      have single {cs : List Char} : ∀ e ∈ (d :: cs).head?, symbolOfTwo? c e = none := by
        rintro _ ⟨⟩
        exact two
      rw [List.cons_append, cutSymbol_one single, cutSymbol_one single]
      cases symbolOfOne? c <;> rfl

end symbols

/-! ## Lexemes -/

section cut

variable {c : Char} {cs rest tail : List Char} {l : Lexeme}

def cut (c : Char) (cs : List Char) : Except Cause (Lexeme × List Char) :=
  Parsed.pair <$> scan c cs

theorem cut_number (digit : isDigit c) : cut c cs = Parsed.pair <$> scanNumber c cs := by
  rw [cut, scan, if_pos digit]

theorem cut_text (quote : c = '"' ∨ c = '\'') :
    cut c cs = Prod.map (fun s => .text (String.ofList s)) id <$> cutText c cs := by
  have other : ¬isDigit c := by rcases quote with rfl | rfl <;> decide
  rw [cut, scan, if_neg other, if_pos quote, scanText, cutText, Functor.map_map, Functor.map_map]
  rfl

theorem cut_word (other : ¬isDigit c) (plain : ¬(c = '"' ∨ c = '\'')) (starts : startsWord c) :
    cut c cs = .ok (.word (String.ofList (c :: cs.takeWhile continuesWord)),
      cs.dropWhile continuesWord) := by
  rw [cut, scan, if_neg other, if_neg plain, if_pos starts]
  rfl

theorem cut_symbol (other : ¬isDigit c) (plain : ¬(c = '"' ∨ c = '\'')) (sign : ¬startsWord c) :
    cut c cs = cutSymbol c cs := by
  rw [cut, scan, if_neg other, if_neg plain, if_neg sign, cutSymbol]

theorem map_before {α : Type} {read read' : Except Cause (α × List Char)} {a : α}
    (same : read' = before tail <$> read) (ok : read = .ok (a, rest)) :
    read' = .ok (a, rest ++ tail) := by
  rw [same, ok]
  rfl

/-- What is read as a lexeme is read as that in front of white space, too. -/
theorem cut_before (opens : Opens tail) (ok : cut c cs = .ok (l, rest)) :
    cut c (cs ++ tail) = .ok (l, rest ++ tail) := by
  by_cases digit : isDigit c
  · rw [cut_number digit] at ok ⊢
    exact map_before (scanNumber_before opens c cs) ok
  by_cases quote : c = '"' ∨ c = '\''
  · rw [cut_text quote] at ok ⊢
    have visible : isBlank c = false := by rcases quote with rfl | rfl <;> decide
    cases inner : cutText c cs with
    | error cause =>
      rw [inner] at ok
      cases ok
    | ok found =>
      rw [inner] at ok
      cases ok
      rw [cutText_before opens visible inner]
      rfl
  by_cases starts : startsWord c
  · rw [cut_word digit quote starts] at ok ⊢
    cases ok
    have span := span_before opens (fun _ => continuesWord_of_isBlank) cs
    obtain ⟨taken, left⟩ := Prod.mk.inj span
    change (cs ++ tail).takeWhile continuesWord = cs.takeWhile continuesWord at taken
    change (cs ++ tail).dropWhile continuesWord = cs.dropWhile continuesWord ++ tail at left
    rw [taken, left]
  · rw [cut_symbol digit quote starts] at ok ⊢
    exact map_before (cutSymbol_before opens) ok

/-! ## What is left is the end of what was read -/

theorem fraction_suffix (cs : List Char) : (fraction cs).pair.2 <:+ cs := by
  by_cases digits : ∃ d ds, cs = '.' :: d :: ds ∧ isDigit d
  · obtain ⟨d, ds, rfl, digit⟩ := digits
    rw [fraction_digits digit]
    exact (List.dropWhile_suffix _).trans ((List.suffix_cons d ds).trans (List.suffix_cons '.' _))
  · have stay : ∀ d ds, cs = '.' :: d :: ds → isDigit d = false := fun d ds same =>
      Bool.eq_false_iff.2 fun digit => digits ⟨d, ds, same, digit⟩
    rewrite [fraction_stay stay]
    exact List.suffix_rfl

theorem exponentSign_suffix (cs : List Char) : (exponentSign cs).pair.2 <:+ cs := by
  cases cs with
  | nil => exact List.suffix_rfl
  | cons c cs =>
    rw [exponentSign_cons]
    split
    · exact List.suffix_cons c cs
    · split
      · exact List.suffix_cons c cs
      · exact List.suffix_rfl

theorem exponent_suffix (cs : List Char) : (exponent cs).pair.2 <:+ cs := by
  cases cs with
  | nil => exact List.suffix_rfl
  | cons e cs =>
    rw [exponent_cons]
    dsimp only
    split
    · exact (List.dropWhile_suffix _).trans ((exponentSign_suffix cs).trans (List.suffix_cons e cs))
    · exact List.suffix_rfl

theorem suffix_suffix (cs : List Char) : (suffix cs).pair.2 <:+ cs := by
  cases cs with
  | nil => exact List.suffix_rfl
  | cons c cs =>
    rw [suffix_cons]
    split
    · exact List.suffix_cons c cs
    · split
      · exact List.suffix_cons c cs
      · exact List.suffix_rfl

theorem rest_eq_of_map {n : Except Cause Lexeme} {left : List Char}
    (ok : (·, left) <$> n = .ok (l, rest)) : left = rest := by
  cases n with
  | error cause => cases ok
  | ok n =>
    cases ok
    rfl

theorem exists_of_map {α β : Type} {f : α → β} {b : β} {read : Except Cause (α × List Char)}
    (ok : Prod.map f id <$> read = .ok (b, rest)) : ∃ a, read = .ok (a, rest) := by
  cases read with
  | error cause => cases ok
  | ok read =>
    cases ok
    exact ⟨read.1, rfl⟩

theorem scanNumber_suffix (ok : Parsed.pair <$> scanNumber c cs = .ok (l, rest)) :
    rest <:+ cs := by
  rw [scanNumber_eq] at ok
  rw [← rest_eq_of_map ok]
  exact (suffix_suffix _).trans ((exponent_suffix _).trans ((fraction_suffix _).trans
    (List.dropWhile_suffix _)))

theorem cutText_suffix {quote : Char} {value : List Char}
    (ok : cutText quote cs = .ok (value, rest)) : rest <:+ cs := by
  induction cs using scanTextBody.induct quote generalizing value with
  | case1 => cases ok
  | case2 => cases ok
  | case3 c cs ih =>
    rw [cutText_backslash] at ok
    obtain ⟨_, inner⟩ := exists_of_map ok
    exact (ih inner).trans ((List.suffix_cons c cs).trans (List.suffix_cons _ _))
  | case4 cs _ plain ih =>
    have plain : quote ≠ '\\' := fun same => plain quote cs same rfl
    rw [cutText_doubled plain] at ok
    obtain ⟨_, inner⟩ := exists_of_map ok
    exact (ih inner).trans ((List.suffix_cons quote cs).trans (List.suffix_cons _ _))
  | case5 d cs other _ plain =>
    have plain : quote ≠ '\\' := fun same => plain d cs same rfl
    have ends : ∀ e ∈ (d :: cs).head?, e ≠ quote := by
      rintro _ ⟨⟩
      exact other
    rw [cutText_end plain ends] at ok
    cases ok
    exact List.suffix_cons _ _
  | case6 plain _ =>
    have plain : quote ≠ '\\' := fun same => plain same rfl
    have last : ∀ e ∈ ([] : List Char).head?, e ≠ quote := nofun
    rw [cutText_end plain last] at ok
    cases ok
    exact List.suffix_cons _ _
  | case7 c cs short long other ih =>
    have plain : c ≠ '\\' := by
      intro same
      cases cs with
      | nil => exact short same rfl
      | cons d cs => exact long d cs same rfl
    rw [cutText_raw plain other] at ok
    obtain ⟨_, inner⟩ := exists_of_map ok
    exact (ih inner).trans (List.suffix_cons c cs)

theorem exists_of_cutSymbol (ok : cutSymbol c cs = .ok (l, rest)) :
    (∃ s, l = .symbol s) ∧ rest <:+ cs := by
  have one (single : ∀ d ∈ cs.head?, symbolOfTwo? c d = none) :
      (∃ s, l = .symbol s) ∧ rest <:+ cs := by
    rw [cutSymbol_one single] at ok
    split at ok
    · cases ok
      exact ⟨⟨_, rfl⟩, List.suffix_rfl⟩
    · cases ok
  cases cs with
  | nil => exact one nofun
  | cons d cs =>
    cases two : symbolOfTwo? c d with
    | some s =>
      rw [cutSymbol_two two] at ok
      cases ok
      exact ⟨⟨s, rfl⟩, List.suffix_cons d _⟩
    | none =>
      refine one ?_
      rintro _ ⟨⟩
      exact two

theorem cut_suffix (ok : cut c cs = .ok (l, rest)) : rest <:+ cs := by
  by_cases digit : isDigit c
  · rw [cut_number digit] at ok
    exact scanNumber_suffix ok
  by_cases quote : c = '"' ∨ c = '\''
  · rw [cut_text quote] at ok
    obtain ⟨_, inner⟩ := exists_of_map ok
    exact cutText_suffix inner
  by_cases starts : startsWord c
  · rw [cut_word digit quote starts] at ok
    cases ok
    exact List.dropWhile_suffix _
  · rw [cut_symbol digit quote starts] at ok
    exact (exists_of_cutSymbol ok).2

end cut

end Lexeme

end LootFilter
