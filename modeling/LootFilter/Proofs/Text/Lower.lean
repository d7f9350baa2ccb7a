import LootFilter.Text.Case

/-!
# Lower case

All characters but one have a single character as their lower case, and only the question mark is
lowered to itself. The letter case of ASCII letters does not show in the lower case of a text.
-/

namespace LootFilter.Text

variable {c : Char} {n m : Nat} {runs : List CaseRun}

theorem mem_of_runTarget (h : runTarget runs n = some m) :
    ∃ run ∈ runs, run.first ≤ n ∧ m = (n + run.shift).toNat := by
  induction runs with
  | nil => cases h
  | cons run runs ih =>
    rw [runTarget] at h
    split at h
    · cases h
    · rename_i reached
      split at h
      · exact ⟨run, .head _, Nat.not_lt.1 reached, (Option.some.inj h).symm⟩
      · obtain ⟨other, mem, found⟩ := ih h
        exact ⟨other, .tail _ mem, found⟩

theorem lowerChar_eq (c : Char) : lowerChar c =
    if c = 'İ' then ['i', '\u0307']
    else [((runTarget lowerRuns c.toNat).map Char.ofNat).getD c] := by
  unfold lowerChar mapCase lowerExpansions
  by_cases dotted : c = 'İ'
  · rw [if_pos dotted, dotted]
    rfl
  · have other : (c.toNat == 304) = false :=
      beq_eq_false_iff_ne.2 fun same => dotted (Char.toNat_inj.1 same)
    rw [if_neg dotted, List.lookup_cons, other]
    cases runTarget lowerRuns c.toNat <;> rfl

theorem length_lowerChar_eq_one_iff : (lowerChar c).length = 1 ↔ c ≠ 'İ' := by
  rw [lowerChar_eq]
  split
  · rename_i dotted
    exact iff_of_false (by decide) (not_not_intro dotted)
  · rename_i other
    exact iff_of_true rfl other

theorem lowerChar_ne_nil (c : Char) : lowerChar c ≠ [] := by
  rw [lowerChar_eq]
  split <;> exact List.cons_ne_nil _ _

theorem lt_target_of_mem : ∀ run ∈ lowerRuns, 64 < run.first + run.shift := by decide +kernel

theorem eq_of_lowerChar_eq_question (h : lowerChar c = ['?']) : c = '?' := by
  rw [lowerChar_eq] at h
  split at h
  · cases h
  · have same := List.singleton_inj.1 h
    cases target : runTarget lowerRuns c.toNat with
    | none => rwa [target] at same
    | some m =>
      have same : Char.ofNat m = '?' := by rwa [target] at same
      -- The code point of a question mark comes before those that the runs lead to.
      have code : m = 63 := by
        by_cases valid : m.isValidChar
        · rw [Char.ofNat, dif_pos valid] at same
          exact congrArg Char.toNat same
        · rw [Char.ofNat, dif_neg valid] at same
          cases same
      obtain ⟨run, mem, reached, moved⟩ := mem_of_runTarget target
      have late := lt_target_of_mem run mem
      omega

/-! ## ASCII letters -/

/-- Whether two characters are lowered to the same, and leave a sigma next to them what it is. -/
structure LoweredAlike (c d : Char) : Prop where
  lower : lowerChar c = lowerChar d
  cased : isCased c = isCased d
  ignorable : isCaseIgnorable c = isCaseIgnorable d
  sigma : c = 'Σ' ↔ d = 'Σ'

theorem loweredAlike_letter : ∀ n < 26,
    let c := Char.ofNat (n + 65)
    lowerChar c.toLower = lowerChar c ∧ isCased c.toLower = isCased c ∧
      isCaseIgnorable c.toLower = isCaseIgnorable c ∧ (c.toLower = 'Σ' ↔ c = 'Σ') := by
  decide +kernel

theorem loweredAlike_toLower (c : Char) : LoweredAlike c.toLower c := by
  by_cases capital : 65 ≤ c.toNat ∧ c.toNat ≤ 90
  · obtain ⟨lower, cased, ignorable, sigma⟩ := loweredAlike_letter (c.toNat - 65) (by omega)
    rw [Nat.sub_add_cancel capital.1, Char.ofNat_toNat] at lower cased ignorable sigma
    exact ⟨lower, cased, ignorable, sigma⟩
  · have same : c.toLower = c := dif_neg capital
    rw [same]
    exact ⟨rfl, rfl, rfl, .rfl⟩

section alike

variable {f : Char → Char} (alike : ∀ c, LoweredAlike (f c) c)

include alike

theorem meetsCased_map (cs : List Char) : meetsCased (cs.map f) = meetsCased cs := by
  have ignorable : isCaseIgnorable ∘ f = isCaseIgnorable := funext fun c => (alike c).ignorable
  rw [meetsCased, List.dropWhile_map, ignorable, meetsCased]
  cases cs.dropWhile isCaseIgnorable with
  | nil => rfl
  | cons c _ => exact (alike c).cased

theorem lowerAfter_map (before cs : List Char) :
    lowerAfter (before.map f) (cs.map f) = lowerAfter before cs := by
  induction cs generalizing before with
  | nil => rfl
  | cons c cs ih =>
    have rest := ih (c :: before)
    rw [List.map_cons] at rest
    rw [List.map_cons, lowerAfter, rest, lowerAfter, (alike c).lower, endsWord,
      meetsCased_map alike, meetsCased_map alike, endsWord]
    simp only [(alike c).sigma]

end alike

/-- Texts that differ in the letter case of ASCII letters only have the same lower case. -/
theorem lower_toLower (s : String) : lower s.toLower = lower s := by
  have letters : s.toLower.toList = s.toList.map Char.toLower := String.toList_map
  rw [lower, letters, lowerChars]
  exact congrArg String.ofList (lowerAfter_map loweredAlike_toLower [] s.toList)

end LootFilter.Text
