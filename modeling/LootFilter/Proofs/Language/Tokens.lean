import LootFilter.Proofs.Language.Scan
import Mathlib.Data.List.Forall2

/-!
# Tokens on both sides of white space

A text can be cut at white space between its tokens: what stands in front of it and behind it is cut
into tokens by itself, the latter at places further on. So it never matters how much white space
there is.
-/

namespace LootFilter

open Lexeme (Opens cut)
open Text (isBlank)

/-- A lexeme and its place in a text, or where the text ends. -/
structure Mark where
  lexeme : Option Lexeme
  pos : Nat

def Mark.shift (n : Nat) (mark : Mark) : Mark := { mark with pos := mark.pos + n }

def CompileError.shift (n : Nat) (e : CompileError) : CompileError :=
  { e with position := e.position + n }

namespace Token

def mark (token : Token) : Mark := ⟨some token.lexeme, token.pos⟩

def shift (n : Nat) (token : Token) : Token := { token with pos := token.pos + n }

/-- The tokens of the characters `cs`, which stand behind `pos` others, and the end that is come to
behind them. -/
def marksAt (pos : Nat) : (cs : List Char) → Except CompileError (List Mark)
  | [] => .ok [⟨none, pos⟩]
  | c :: cs =>
    if isBlank c then marksAt (pos + 1) cs
    else
      match Lexeme.scan c cs with
      | .error cause => .error ⟨cause, pos⟩
      | .ok read =>
        let width := cs.length + 1 - read.rest.length
        (⟨some read.value, pos⟩ :: ·) <$> marksAt (pos + width) read.rest
termination_by cs => cs.length
decreasing_by
  · exact Nat.lt_succ_self _
  · exact read.shorter

def marks (text : String) : Except CompileError (List Mark) := marksAt 0 text.toList

/-! ## Steps -/

section steps

variable {c : Char} {cs rest : List Char} {l : Lexeme} {cause : CompileError.Cause} {pos : Nat}

theorem exists_of_cut (ok : cut c cs = .ok (l, rest)) :
    ∃ shorter, Lexeme.scan c cs = .ok ⟨l, rest, shorter⟩ := by
  rw [cut] at ok
  cases scanned : Lexeme.scan c cs with
  | error cause =>
    rw [scanned] at ok
    cases ok
  | ok found =>
    rw [scanned] at ok
    obtain ⟨value, left, shorter⟩ := found
    cases ok
    exact ⟨shorter, rfl⟩

theorem scan_of_cut (failed : cut c cs = .error cause) : Lexeme.scan c cs = .error cause := by
  rw [cut] at failed
  cases scanned : Lexeme.scan c cs with
  | error cause' =>
    rw [scanned] at failed
    cases failed
    rfl
  | ok found =>
    rw [scanned] at failed
    cases failed

theorem ofCharsAt_blank (blank : isBlank c) : ofCharsAt pos (c :: cs) = ofCharsAt (pos + 1) cs := by
  rw [ofCharsAt, if_pos blank]

theorem ofCharsAt_error (visible : ¬isBlank c) (failed : cut c cs = .error cause) :
    ofCharsAt pos (c :: cs) = .error ⟨cause, pos⟩ := by
  rw [ofCharsAt, if_neg visible, scan_of_cut failed]

theorem ofCharsAt_lexeme (visible : ¬isBlank c) (ok : cut c cs = .ok (l, rest)) :
    ofCharsAt pos (c :: cs) =
      (⟨l, pos⟩ :: ·) <$> ofCharsAt (pos + (cs.length + 1 - rest.length)) rest := by
  obtain ⟨shorter, scanned⟩ := exists_of_cut ok
  rw [ofCharsAt, if_neg visible, scanned]

theorem length_of_cut (ok : cut c cs = .ok (l, rest)) : rest.length ≤ cs.length := by
  obtain ⟨shorter, -⟩ := exists_of_cut ok
  exact Nat.le_of_lt_succ shorter

/-- Induction over the lexemes of a text. -/
theorem induction {P : List Char → Prop} (nil : P [])
    (blank : ∀ c cs, isBlank c → P cs → P (c :: cs))
    (failed : ∀ c cs cause, ¬isBlank c → cut c cs = .error cause → P (c :: cs))
    (lexeme : ∀ c cs l rest, ¬isBlank c → cut c cs = .ok (l, rest) → P rest → P (c :: cs))
    (cs : List Char) : P cs := by
  induction h : cs.length using Nat.strongRecOn generalizing cs with
  | ind n ih =>
    cases cs with
    | nil => exact nil
    | cons c cs =>
      by_cases space : isBlank c
      · exact blank c cs space (ih cs.length (by rw [← h]; exact Nat.lt_succ_self _) cs rfl)
      · cases found : cut c cs with
        | error cause => exact failed c cs cause space found
        | ok found' =>
          obtain ⟨l, rest⟩ := found'
          have shorter := length_of_cut found
          refine lexeme c cs l rest space found (ih rest.length ?_ rest rfl)
          rw [← h]
          exact Nat.lt_succ_of_le shorter

end steps

/-! ## Places -/

/-- Tokens and errors `n` characters further on. -/
def shifted (n : Nat) : Except CompileError (List Token) → Except CompileError (List Token)
  | .ok ts => .ok (ts.map (shift n))
  | .error e => .error (e.shift n)

variable {cs tail w : List Char} {ts : List Token}

theorem shifted_cons (n : Nat) (t : Token) (found : Except CompileError (List Token)) :
    shifted n ((t :: ·) <$> found) = (t.shift n :: ·) <$> shifted n found := by
  cases found <;> rfl

theorem ofCharsAt_shift (n pos : Nat) (cs : List Char) :
    ofCharsAt (pos + n) cs = shifted n (ofCharsAt pos cs) := by
  induction cs using induction generalizing pos with
  | nil =>
    rw [ofCharsAt, ofCharsAt]
    rfl
  | blank c cs blank ih =>
    rw [ofCharsAt_blank blank, ofCharsAt_blank blank, ← ih, Nat.add_right_comm]
  | failed c cs cause visible failed =>
    rw [ofCharsAt_error visible failed, ofCharsAt_error visible failed]
    rfl
  | lexeme c cs l rest visible ok ih =>
    rw [ofCharsAt_lexeme visible ok, ofCharsAt_lexeme visible ok, shifted_cons, ← ih,
      Nat.add_right_comm]
    rfl

theorem ofCharsAt_gap (blank : ∀ c ∈ w, isBlank c) (pos : Nat) (cs : List Char) :
    ofCharsAt pos (w ++ cs) = ofCharsAt (pos + w.length) cs := by
  induction w generalizing pos with
  | nil => rfl
  | cons c w ih =>
    obtain ⟨first, others⟩ := List.forall_mem_cons.1 blank
    rw [List.cons_append, ofCharsAt_blank first, ih others, List.length_cons, Nat.add_assoc,
      Nat.add_comm 1]

/-- Tokens in front of white space do not depend on what stands behind. -/
theorem ofCharsAt_append (opens : Opens tail) {pos : Nat} (ok : ofCharsAt pos cs = .ok ts) :
    ofCharsAt pos (cs ++ tail) = (ts ++ ·) <$> ofCharsAt (pos + cs.length) tail := by
  induction cs using induction generalizing pos ts with
  | nil =>
    rw [ofCharsAt] at ok
    cases ok
    exact (id_map _).symm
  | blank c cs blank ih =>
    rw [ofCharsAt_blank blank] at ok
    rw [List.cons_append, ofCharsAt_blank blank, ih ok, List.length_cons, Nat.add_assoc,
      Nat.add_comm 1]
  | failed c cs cause visible failed =>
    rw [ofCharsAt_error visible failed] at ok
    cases ok
  | lexeme c cs l rest visible found ih =>
    rw [ofCharsAt_lexeme visible found] at ok
    have shorter := length_of_cut found
    generalize width : cs.length + 1 - rest.length = n at ok
    cases others : ofCharsAt (pos + n) rest with
    | error e =>
      rw [others] at ok
      cases ok
    | ok ts =>
      rw [others] at ok
      cases ok
      have same : (cs ++ tail).length + 1 - (rest ++ tail).length = n := by
        rw [List.length_append, List.length_append]
        omega
      have length : pos + n + rest.length = pos + (c :: cs).length := by
        rw [List.length_cons]
        omega
      rw [List.cons_append, ofCharsAt_lexeme visible (Lexeme.cut_before opens found), same,
        ih others, length, Functor.map_map]
      rfl

/-- Tokens stand within the text, one behind the other. -/
theorem ofCharsAt_places {pos : Nat} (ok : ofCharsAt pos cs = .ok ts) :
    (∀ t ∈ ts, pos ≤ t.pos ∧ t.pos < pos + cs.length) ∧ ts.Pairwise (·.pos < ·.pos) := by
  induction cs using induction generalizing pos ts with
  | nil =>
    rw [ofCharsAt] at ok
    cases ok
    exact ⟨List.forall_mem_nil _, .nil⟩
  | blank c cs blank ih =>
    rw [ofCharsAt_blank blank] at ok
    obtain ⟨within, ordered⟩ := ih ok
    refine ⟨fun t mem => ?_, ordered⟩
    have place := within t mem
    rw [List.length_cons]
    omega
  | failed c cs cause visible failed =>
    rw [ofCharsAt_error visible failed] at ok
    cases ok
  | lexeme c cs l rest visible found ih =>
    rw [ofCharsAt_lexeme visible found] at ok
    have shorter := length_of_cut found
    generalize width : cs.length + 1 - rest.length = n at ok
    cases others : ofCharsAt (pos + n) rest with
    | error e =>
      rw [others] at ok
      cases ok
    | ok ts =>
      rw [others] at ok
      cases ok
      obtain ⟨within, ordered⟩ := ih others
      rw [List.length_cons]
      have further : ∀ t ∈ ts, pos < t.pos ∧ t.pos < pos + (cs.length + 1) := by
        intro t mem
        have place := within t mem
        omega
      constructor
      · refine List.forall_mem_cons.2 ⟨⟨Nat.le_refl pos, Nat.lt_add_of_pos_right (by omega)⟩, ?_⟩
        exact fun t mem => ⟨Nat.le_of_lt (further t mem).1, (further t mem).2⟩
      · exact List.pairwise_cons.2 ⟨fun t mem => (further t mem).1, ordered⟩

/-- What is found at a place of some characters: a lexeme begins there, or something that is none. -/
def FoundAt (whole : List Char) (pos : Nat) (found : Except CompileError.Cause Lexeme) : Prop :=
  ∃ c cs, whole.drop pos = c :: cs ∧ ¬isBlank c ∧ Prod.fst <$> cut c cs = found

/-- Whether tokens stand where their lexemes begin, or an error where something begins that is no
lexeme. -/
def Finds (whole : List Char) : Except CompileError (List Token) → Prop
  | .ok ts => ∀ t ∈ ts, FoundAt whole t.pos (.ok t.lexeme)
  | .error e => FoundAt whole e.position (.error e.cause)

theorem finds_ofCharsAt {whole : List Char} {pos : Nat} (stands : whole.drop pos = cs) :
    Finds whole (ofCharsAt pos cs) := by
  induction cs using induction generalizing pos with
  | nil =>
    rw [ofCharsAt]
    exact List.forall_mem_nil _
  | blank c cs blank ih =>
    rw [ofCharsAt_blank blank]
    exact ih (by rw [← List.drop_drop, stands, List.drop_one, List.tail_cons])
  | failed c cs cause visible failed =>
    rw [ofCharsAt_error visible failed]
    exact ⟨c, cs, stands, visible, by rw [failed]; rfl⟩
  | lexeme c cs l rest visible found ih =>
    have behind : whole.drop (pos + (cs.length + 1 - rest.length)) = rest := by
      have suffix := (Lexeme.cut_suffix found).trans (List.suffix_cons c cs)
      rw [← List.drop_drop, stands, ← List.length_cons]
      exact (List.suffix_iff_eq_drop.1 suffix).symm
    have others := ih behind
    rw [ofCharsAt_lexeme visible found]
    cases result : ofCharsAt (pos + (cs.length + 1 - rest.length)) rest with
    | error e =>
      rw [result] at others
      exact others
    | ok ts =>
      rw [result] at others
      exact List.forall_mem_cons.2 ⟨⟨c, cs, stands, visible, by rw [found]; rfl⟩, others⟩

/-! ## Ends -/

/-- The end that is come to is that of the text. -/
theorem marksAt_eq (pos : Nat) (cs : List Char) : marksAt pos cs =
    (fun ts => ts.map mark ++ [⟨none, pos + cs.length⟩]) <$> ofCharsAt pos cs := by
  induction cs using induction generalizing pos with
  | nil =>
    rw [marksAt, ofCharsAt]
    rfl
  | blank c cs blank ih =>
    rw [marksAt, if_pos blank, ofCharsAt_blank blank, ih, List.length_cons, Nat.add_assoc,
      Nat.add_comm 1]
  | failed c cs cause visible failed =>
    rw [marksAt, if_neg visible, scan_of_cut failed, ofCharsAt_error visible failed]
    rfl
  | lexeme c cs l rest visible ok ih =>
    obtain ⟨shorter, scanned⟩ := exists_of_cut ok
    have length : pos + (cs.length + 1 - rest.length) + rest.length = pos + (cs.length + 1) := by
      omega
    rw [marksAt, if_neg visible, scanned, ofCharsAt_lexeme visible ok]
    dsimp only
    rw [ih, length, Functor.map_map, Functor.map_map]
    rfl

/-! ## Texts -/

/-- The marks of a text's tokens and of its end. -/
def close (text : String) (ts : List Token) : List Mark := ts.map mark ++ [⟨none, text.length⟩]

theorem marks_eq (text : String) : marks text = close text <$> ofText text := by
  rw [marks, marksAt_eq, Nat.zero_add]
  rfl

/-- White space that separates, at least one character of it. -/
def IsGap (w : String) : Prop := w ≠ "" ∧ Text.allBlank w.toList

namespace IsGap

variable {w : String} (gap : IsGap w)

include gap

theorem blank : ∀ c ∈ w.toList, isBlank c := List.all_eq_true.1 gap.2

theorem opens (cs : List Char) : Opens (w.toList ++ cs) := by
  cases same : w.toList with
  | nil => exact absurd (String.toList_eq_nil_iff.1 same) gap.1
  | cons c w' =>
    rintro _ ⟨⟩
    exact gap.blank c (by simp [same])

end IsGap

section texts

variable {a w b text : String} {ms : List Mark}

theorem ofText_append (ok : ofText a = .ok ts) (gap : IsGap w) :
    ofText (a ++ w ++ b) = (ts ++ ·) <$> shifted (a ++ w).length (ofText b) := by
  rw [ofText, String.toList_append, String.toList_append, List.append_assoc,
    ofCharsAt_append (gap.opens _) ok, ofCharsAt_gap gap.blank, Nat.add_assoc, ofCharsAt_shift,
    String.length_append]
  rfl

/-- Marks and errors `n` characters further on, with others in front of them. -/
def behind (front : List Mark) (n : Nat) :
    Except CompileError (List Mark) → Except CompileError (List Mark)
  | .ok ms => .ok (front ++ ms.map (Mark.shift n))
  | .error e => .error (e.shift n)

theorem ofText_of_marks (ok : marks text = .ok ms) :
    ∃ ts, ofText text = .ok ts ∧ ms = close text ts := by
  rw [marks_eq] at ok
  cases found : ofText text with
  | error e =>
    rw [found] at ok
    cases ok
  | ok ts =>
    rw [found] at ok
    cases ok
    exact ⟨ts, rfl, rfl⟩

theorem dropLast_close (ts : List Token) : (close text ts).dropLast = ts.map mark :=
  List.dropLast_concat

theorem marks_append (ok : marks a = .ok ms) (gap : IsGap w) :
    marks (a ++ w ++ b) = behind ms.dropLast (a ++ w).length (marks b) := by
  obtain ⟨ts, found, rfl⟩ := ofText_of_marks ok
  rw [dropLast_close, marks_eq, marks_eq, ofText_append found gap]
  cases ofText b with
  | error e => rfl
  | ok us =>
    have length : (a ++ w ++ b).length = b.length + (a ++ w).length := by
      rw [String.length_append, Nat.add_comm]
    change Except.ok (close (a ++ w ++ b) (ts ++ us.map (shift (a ++ w).length))) =
      .ok (ts.map mark ++ (close b us).map (Mark.shift (a ++ w).length))
    rw [close, close, length, List.map_append, List.map_append, List.append_assoc, List.map_map,
      List.map_map]
    rfl

theorem marks_ordered (ok : marks text = .ok ms) : ms.Pairwise (·.pos < ·.pos) := by
  obtain ⟨ts, found, rfl⟩ := ofText_of_marks ok
  obtain ⟨within, ordered⟩ := ofCharsAt_places found
  refine List.pairwise_append.2 ⟨List.pairwise_map.2 ordered, List.pairwise_singleton .., ?_⟩
  intro first inside last ends
  obtain ⟨t, mem, rfl⟩ := List.mem_map.1 inside
  obtain rfl := List.mem_singleton.1 ends
  have place := (within t mem).2
  rwa [Nat.zero_add] at place

end texts

/-! ## Kinds -/

/-- What is found in a text, or wrong with it, wherever that is. -/
def kinds (found : Except CompileError (List Mark)) :
    Except CompileError.Cause (List (Option Lexeme)) :=
  match found with
  | .ok ms => .ok (ms.map Mark.lexeme)
  | .error e => .error e.cause

theorem kinds_behind (front : List Mark) (n : Nat) (found : Except CompileError (List Mark)) :
    kinds (behind front n found) = (front.map Mark.lexeme ++ ·) <$> kinds found := by
  cases found with
  | error e => rfl
  | ok ms =>
    change Except.ok _ = Except.ok _
    rw [List.map_append, List.map_map]
    rfl

/-- Texts with gaps behind them, and a last text. -/
def joined (pieces : List (String × String)) (last : String) : String :=
  pieces.foldr (fun piece text => piece.1 ++ piece.2 ++ text) last

/-- The same text, which is accepted, with another gap behind it. -/
structure SamePiece (piece piece' : String × String) : Prop where
  text : piece.1 = piece'.1
  accepted : (marks piece.1).isOk
  gap : IsGap piece.2
  gap' : IsGap piece'.2

theorem kinds_joined {pieces pieces' : List (String × String)}
    (same : List.Forall₂ SamePiece pieces pieces') (last : String) :
    kinds (marks (joined pieces last)) = kinds (marks (joined pieces' last)) := by
  induction same with
  | nil => rfl
  | @cons piece piece' pieces pieces' first others ih =>
    obtain ⟨text, gap⟩ := piece
    obtain ⟨_, gap'⟩ := piece'
    obtain ⟨⟨⟩, accepted, isGap, isGap'⟩ := first
    cases found : marks text with
    | error e =>
      rw [found] at accepted
      cases accepted
    | ok ms =>
      change kinds (marks (text ++ gap ++ joined pieces last)) =
        kinds (marks (text ++ gap' ++ joined pieces' last))
      rw [marks_append found isGap, marks_append found isGap', kinds_behind, kinds_behind, ih]

/-- Cutting a text into tokens is compositional at white space, so the tokens' places ascend, and how
much white space there is between texts makes no difference to what they are. -/
theorem marks_compositional :
    (∀ text, marks text = close text <$> ofText text) ∧
    (∀ a w b ms, marks a = .ok ms → IsGap w →
      marks (a ++ w ++ b) = behind ms.dropLast (a ++ w).length (marks b)) ∧
    (∀ text ms, marks text = .ok ms → ms.Pairwise (·.pos < ·.pos)) ∧
    ∀ pieces pieces' last, List.Forall₂ SamePiece pieces pieces' →
      kinds (marks (joined pieces last)) = kinds (marks (joined pieces' last)) :=
  ⟨marks_eq, fun _ _ _ _ ok gap => marks_append ok gap, fun _ _ => marks_ordered,
    fun _ _ last same => kinds_joined same last⟩

/-- What is wrong behind white space is wrong there as it is by itself. -/
theorem marks_compositional_unterminated :
    marks "1." = .ok [⟨some (.int 1), 0⟩, ⟨some (.symbol .dot), 1⟩, ⟨none, 2⟩] ∧
      marks ("1." ++ " " ++ "5 'x") = .error ⟨.unterminatedText, 5⟩ := by
  have number : marks "1." = .ok [⟨some (.int 1), 0⟩, ⟨some (.symbol .dot), 1⟩, ⟨none, 2⟩] := by
    have one : cut '1' ['.'] = .ok (.int 1, ['.']) := rfl
    have dot : cut '.' [] = .ok (.symbol .dot, []) := rfl
    change marksAt 0 ['1', '.'] = _
    rw [marksAt_eq, ofCharsAt_lexeme (by decide) one, ofCharsAt_lexeme (by decide) dot, ofCharsAt]
    rfl
  have failed : marks "5 'x" = .error ⟨.unterminatedText, 2⟩ := by
    have five : cut '5' [' ', '\'', 'x'] = .ok (.int 5, [' ', '\'', 'x']) := rfl
    have quote : cut '\'' ['x'] = .error .unterminatedText := rfl
    change marksAt 0 ['5', ' ', '\'', 'x'] = _
    rw [marksAt_eq, ofCharsAt_lexeme (by decide) five, ofCharsAt_blank rfl,
      ofCharsAt_error (by decide) quote]
    rfl
  have gap : IsGap " " := ⟨by decide, by decide⟩
  refine ⟨number, ?_⟩
  rw [marks_compositional.2.1 _ _ _ _ number gap, failed]
  rfl

end Token

end LootFilter
