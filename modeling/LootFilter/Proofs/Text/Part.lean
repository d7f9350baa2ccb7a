import LootFilter.Proofs.Text.Lower
import LootFilter.Text.Search

/-!
# Parts of a text

The lower case of a part of a text is a part of the lower case of the text, up to the sigmas of the
part: the letters around the part can decide whether one of its sigmas ends a word.
-/

namespace LootFilter.Text

/-- The lower case of `cs`, standing between the characters `before` (nearest first) and the
characters `behind`. -/
def lowerBetween (before behind : List Char) : List Char → List Char
  | [] => []
  | c :: cs =>
    (if c = 'Σ' then [if endsWord before (cs ++ behind) then 'ς' else 'σ'] else lowerChar c) ++
      lowerBetween (c :: before) behind cs

variable {before behind before' behind' cs ds : List Char}

theorem lowerBetween_nil : lowerBetween before [] cs = lowerAfter before cs := by
  induction cs generalizing before with
  | nil => rfl
  | cons c cs ih => rw [lowerBetween, lowerAfter, List.append_nil, ih]

theorem lowerBetween_append : lowerBetween before behind (cs ++ ds) =
    lowerBetween before (ds ++ behind) cs ++ lowerBetween (cs.reverse ++ before) behind ds := by
  induction cs generalizing before with
  | nil => rfl
  | cons c cs ih =>
    rw [List.cons_append, lowerBetween, lowerBetween, ih, List.append_assoc cs,
      List.append_assoc, List.reverse_cons, List.append_assoc, List.singleton_append]

theorem lowerChars_append_append : lowerChars (before ++ cs ++ behind) =
    lowerBetween [] (cs ++ behind) before ++ lowerBetween before.reverse behind cs ++
      lowerBetween (cs.reverse ++ before.reverse) [] behind := by
  rw [lowerChars, ← lowerBetween_nil, lowerBetween_append, lowerBetween_append, List.append_nil,
    List.append_nil, List.reverse_append, List.append_nil]

theorem length_lowerBetween : (lowerBetween before behind cs).length = (lowerChars cs).length := by
  suffices same : ∀ after, (lowerBetween before behind cs).length = (lowerAfter after cs).length
    from same []
  induction cs generalizing before with
  | nil => exact fun _ => rfl
  | cons c cs ih =>
    intro after
    rw [lowerBetween, lowerAfter, List.length_append, List.length_append, ih (c :: after)]
    split <;> rfl

/-- Whether each sigma of `cs` ends a word in one surrounding just if it does in the other. -/
def SigmasAlike (before behind before' behind' cs : List Char) : Prop :=
  ∀ p q, cs = p ++ 'Σ' :: q →
    endsWord (p.reverse ++ before) (q ++ behind) = endsWord (p.reverse ++ before') (q ++ behind')

theorem sigmasAlike_cons {c : Char} : SigmasAlike before behind before' behind' (c :: cs) ↔
    (c = 'Σ' → endsWord before (cs ++ behind) = endsWord before' (cs ++ behind')) ∧
      SigmasAlike (c :: before) behind (c :: before') behind' cs := by
  constructor
  · refine fun alike => ⟨fun sigma => alike [] cs (by rw [sigma]; rfl), fun p q split => ?_⟩
    have whole := alike (c :: p) q (congrArg (c :: ·) split)
    rwa [List.reverse_cons, List.append_assoc, List.append_assoc] at whole
  · rintro ⟨first, rest⟩ (_ | ⟨d, p⟩) q split
    · obtain ⟨rfl, rfl⟩ := List.cons.inj split
      exact first rfl
    · obtain ⟨rfl, within⟩ := List.cons.inj split
      have part := rest p q within
      rwa [List.reverse_cons, List.append_assoc, List.append_assoc]

theorem lowerBetween_eq_iff : lowerBetween before behind cs = lowerBetween before' behind' cs ↔
    SigmasAlike before behind before' behind' cs := by
  induction cs generalizing before before' with
  | nil => exact iff_of_true rfl fun p q split => by simp at split
  | cons c cs ih =>
    have heads (b b' : Bool) :
        ((if c = 'Σ' then [if b then 'ς' else 'σ'] else lowerChar c) =
          if c = 'Σ' then [if b' then 'ς' else 'σ'] else lowerChar c) ↔ (c = 'Σ' → b = b') := by
      by_cases sigma : c = 'Σ'
      · cases b <;> cases b' <;> simp [sigma]
      · simp [sigma]
    rw [sigmasAlike_cons, ← ih, ← heads, lowerBetween, lowerBetween]
    refine ⟨fun same => List.append_inj same ?_, fun ⟨head, rest⟩ => by rw [head, rest]⟩
    split <;> rfl

/-! ## Sigmas that stay what they are -/

/-- Whether the sigmas of `cs` have the same lower case within a text as in `cs` alone. -/
def SigmasStay (before cs behind : List Char) : Prop :=
  SigmasAlike before.reverse behind [] [] cs

/-- Whether the sigmas of `cs` have the same lower case in every text that `cs` is a part of. -/
def IsSteady (cs : List Char) : Prop := ∀ before behind, SigmasStay before cs behind

theorem sigmasStay_iff :
    SigmasStay before cs behind ↔ lowerBetween before.reverse behind cs = lowerChars cs := by
  rw [SigmasStay, ← lowerBetween_eq_iff, lowerBetween_nil, lowerChars]

theorem isSteady_of_not_mem (h : 'Σ' ∉ cs) : IsSteady cs := by
  rintro before behind p q rfl
  exact (h (List.mem_append_right p (.head q))).elim

theorem meetsCased_append : meetsCased (cs ++ ds) =
    if cs.all isCaseIgnorable then meetsCased ds else meetsCased cs := by
  induction cs with
  | nil => rfl
  | cons c cs ih =>
    simp only [meetsCased, List.cons_append, List.dropWhile_cons, List.all_cons] at ih ⊢
    cases isCaseIgnorable c with
    | true => exact ih
    | false => rfl

theorem meetsCased_of_all (h : cs.all isCaseIgnorable) : meetsCased cs = false := by
  have empty : meetsCased (cs ++ []) = _ := meetsCased_append
  rwa [List.append_nil, if_pos h] at empty

/-- Only a letter on one of its sides can change what a sigma is lowered to. -/
theorem isSteady_of_letters {c d : Char} (letter : meetsCased [c]) (letter' : meetsCased [d])
    (front : SigmasStay [c] cs []) (back : SigmasStay [] cs [d]) : IsSteady cs := by
  intro before behind p q split
  have front := front p q split
  have back := back p q split
  simp only [endsWord, meetsCased_append, List.reverse_singleton, List.reverse_nil,
    List.append_nil, letter, letter'] at front back ⊢
  -- A side of the sigma is open to what is around if only ignored characters stand there.
  cases leading : p.reverse.all isCaseIgnorable <;> cases trailing : q.all isCaseIgnorable
  case false.false => rfl
  case true.false =>
    have word : meetsCased q = true := by simpa [leading, meetsCased_of_all leading] using front
    simp [word, meetsCased_of_all leading]
  case false.true =>
    have free : meetsCased p.reverse = false := by
      simpa [trailing, meetsCased_of_all trailing] using back
    simp [free, meetsCased_of_all trailing]
  case true.true =>
    simp [leading, meetsCased_of_all leading, meetsCased_of_all trailing] at front

/-! ## Occurrences -/

theorem occursIn_iff {needle : List Char} : occursIn needle cs ↔ needle <:+: cs := by
  induction cs with
  | nil => simp [occursIn]
  | cons c cs ih =>
    rw [occursIn, Bool.or_eq_true, ih, List.isPrefixOf_iff_prefix, List.infix_cons_iff]

theorem prefix_append_iff {as bs cs : List Char} (h : as.length = bs.length) :
    as <+: bs ++ cs ↔ as = bs := by
  refine ⟨fun within => ?_, fun same => same ▸ List.prefix_append as cs⟩
  have first : bs <+: bs ++ cs := List.prefix_append bs cs
  exact (List.prefix_of_prefix_length_le within first (Nat.le_of_eq h)).eq_of_length h

theorem suffix_append_iff {as bs cs : List Char} (h : as.length = bs.length) :
    as <:+ cs ++ bs ↔ as = bs := by
  refine ⟨fun within => ?_, fun same => same ▸ List.suffix_append cs as⟩
  have last : bs <:+ cs ++ bs := List.suffix_append cs bs
  exact (List.suffix_of_suffix_length_le within last (Nat.le_of_eq h)).eq_of_length h

theorem prefix_lowerChars_iff :
    lowerChars cs <+: lowerChars (cs ++ behind) ↔ SigmasStay [] cs behind := by
  have whole : lowerChars ([] ++ cs ++ behind) = _ := lowerChars_append_append
  rw [List.nil_append, lowerBetween, List.nil_append] at whole
  rw [whole, prefix_append_iff length_lowerBetween.symm, sigmasStay_iff, eq_comm]

theorem suffix_lowerChars_iff :
    lowerChars cs <:+ lowerChars (before ++ cs) ↔ SigmasStay before cs [] := by
  have whole : lowerChars (before ++ cs ++ []) = _ := lowerChars_append_append
  rw [List.append_nil, lowerBetween, List.append_nil] at whole
  rw [whole, suffix_append_iff length_lowerBetween.symm, sigmasStay_iff, eq_comm]

theorem infix_lowerChars (h : SigmasStay before cs behind) :
    lowerChars cs <:+: lowerChars (before ++ cs ++ behind) := by
  rw [lowerChars_append_append, sigmasStay_iff.1 h]
  exact List.infix_append _ _ _

section letter

variable {as bs : List Char} {c : Char}

theorem eq_of_infix_cons (length : as.length = bs.length) (other : as.head? ≠ some c)
    (h : as <:+: c :: bs) : as = bs := by
  rcases List.infix_cons_iff.1 h with leading | rest
  · cases as with
    | nil => exact (List.eq_nil_of_length_eq_zero length.symm).symm
    | cons a as => exact (other (congrArg some (List.cons_prefix_cons.1 leading).1)).elim
  · exact rest.eq_of_length length

theorem eq_of_infix_concat (length : as.length = bs.length) (other : as.getLast? ≠ some c)
    (h : as <:+: bs ++ [c]) : as = bs := by
  have turned : as.reverse <:+: c :: bs.reverse := by
    rw [← List.reverse_concat, List.reverse_infix]
    exact h
  refine List.reverse_inj.1 (eq_of_infix_cons ?_ ?_ turned)
  · rwa [List.length_reverse, List.length_reverse]
  · rwa [List.head?_reverse]

variable (plain : lowerChar c = [c]) (sigma : c ≠ 'Σ')

include plain sigma

theorem sigmasStay_of_infix_front (other : (lowerChars cs).head? ≠ some c)
    (h : lowerChars cs <:+: lowerChars (c :: cs)) : SigmasStay [c] cs [] := by
  have whole : lowerChars (c :: cs) = c :: lowerBetween [c] [] cs := by
    rw [lowerChars, ← lowerBetween_nil, lowerBetween, if_neg sigma, plain, List.singleton_append]
  rw [whole] at h
  exact sigmasStay_iff.2 (eq_of_infix_cons length_lowerBetween.symm other h).symm

theorem sigmasStay_of_infix_back (other : (lowerChars cs).getLast? ≠ some c)
    (h : lowerChars cs <:+: lowerChars (cs ++ [c])) : SigmasStay [] cs [c] := by
  have whole : lowerChars (cs ++ [c]) = lowerBetween [] [c] cs ++ [c] := by
    rw [lowerChars, ← lowerBetween_nil, lowerBetween_append, lowerBetween, if_neg sigma, plain]
    rfl
  rw [whole] at h
  exact sigmasStay_iff.2 (eq_of_infix_concat length_lowerBetween.symm other h).symm

end letter

/-- A text is found in the lower case of all texts that it occurs in just if its sigmas stay what
they are in all of them. -/
theorem isSteady_iff : IsSteady cs ↔ ∀ text, cs <:+: text → lowerChars cs <:+: lowerChars text := by
  refine ⟨fun steady text within => ?_, fun found => ?_⟩
  · obtain ⟨before, behind, rfl⟩ := within
    exact infix_lowerChars (steady before behind)
  · -- The letter next to the text is not the one that the text begins or ends with.
    have letter (taken : Option Char) : ∃ c, taken ≠ some c ∧ lowerChar c = [c] ∧ c ≠ 'Σ' ∧
        meetsCased [c] := by
      by_cases first : taken = some 'a'
      · exact ⟨'b', by rw [first]; decide, by decide +kernel⟩
      · exact ⟨'a', first, by decide +kernel⟩
    obtain ⟨c, other, plain, sigma, cased⟩ := letter (lowerChars cs).head?
    obtain ⟨d, other', plain', sigma', cased'⟩ := letter (lowerChars cs).getLast?
    exact isSteady_of_letters cased cased'
      (sigmasStay_of_infix_front plain sigma other (found _ (List.infix_cons List.infix_rfl)))
      (sigmasStay_of_infix_back plain' sigma' other' (found _ (List.infix_append [] cs [d])))

end LootFilter.Text
