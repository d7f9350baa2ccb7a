import LootFilter.Text.Blank
import Mathlib.Data.List.TakeWhile

/-!
# Characters of white space

White space is a matter of few characters, so what holds for all of them can be tested.
-/

namespace LootFilter.Text

/-- The characters in some ranges. -/
def CodeRanges.chars (ranges : CodeRanges) : List Char :=
  ranges.flatMap fun (low, high) => (List.range' low (high + 1 - low)).map Char.ofNat

theorem CodeRanges.mem_chars {ranges : CodeRanges} {c : Char} (h : ranges.covers c.toNat) :
    c ∈ ranges.chars := by
  induction ranges with
  | nil => cases h
  | cons range ranges ih =>
    obtain ⟨low, high⟩ := range
    rw [chars, List.flatMap_cons, List.mem_append]
    rw [covers] at h
    split at h
    · cases h
    · split at h
      · refine .inl (List.mem_map.2 ⟨c.toNat, ?_, Char.ofNat_toNat c⟩)
        rw [List.mem_range'_1]
        omega
      · exact .inr (ih h)

/-- That white space fails a test has only to be looked up for its 25 characters. -/
theorem fails_of_isBlank {p : Char → Bool} (fails : blankRanges.chars.any p = false) {c : Char}
    (blank : isBlank c) : p c = false :=
  Bool.eq_false_iff.2 (List.any_eq_false.1 fails c (CodeRanges.mem_chars blank))

/-! ## Trimming -/

section trimming

variable {w cs : List Char}

theorem trimChars_blank_append (blank : ∀ c ∈ w, isBlank c) :
    trimChars (w ++ cs) = trimChars cs := by
  rw [trimChars, trimStart, List.dropWhile_append_of_pos blank, trimChars, trimStart]

theorem trimEnd_append_blank (blank : ∀ c ∈ w, isBlank c) : trimEnd (cs ++ w) = trimEnd cs := by
  have reversed : ∀ c ∈ w.reverse, isBlank c := fun c mem => blank c (List.mem_reverse.1 mem)
  rw [trimEnd, List.reverse_append, List.dropWhile_append_of_pos reversed, trimEnd]

theorem trimChars_append_blank (blank : ∀ c ∈ w, isBlank c) :
    trimChars (cs ++ w) = trimChars cs := by
  rw [trimChars, trimStart, List.dropWhile_append, trimChars, trimStart]
  split
  · rename_i all
    have gone : w.dropWhile isBlank = [] := List.dropWhile_eq_nil_iff.2 blank
    rw [gone, List.isEmpty_iff.1 all]
  · exact trimEnd_append_blank blank

end trimming

end LootFilter.Text
