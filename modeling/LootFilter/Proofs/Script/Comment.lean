import LootFilter.Proofs.Text.Blank
import LootFilter.Script.Section

/-!
# What is left of a line

A comment runs from the first two slashes to the end of the line. So white space in front, and white
space or a comment behind, leave what is left of the line as it is.
-/

namespace LootFilter

namespace Section

open Text (isBlank)

/-! ## Characters of lines -/

section characters

variable {c : Char} {cs tail w : List Char}

theorem ne_slash_of_isBlank (blank : isBlank c) : c ≠ '/' := by
  rintro rfl
  cases blank

theorem beforeComment_cons (plain : ¬(c = '/' ∧ cs.head? = some '/')) :
    beforeComment (c :: cs) = c :: beforeComment cs := by
  refine beforeComment.eq_3 c cs ?_
  rintro rest rfl rfl
  exact plain ⟨rfl, rfl⟩

theorem beforeComment_blank_append (blank : ∀ c ∈ w, isBlank c) :
    beforeComment (w ++ cs) = w ++ beforeComment cs := by
  induction w with
  | nil => rfl
  | cons c w ih =>
    obtain ⟨first, others⟩ := List.forall_mem_cons.1 blank
    have plain : ¬(c = '/' ∧ (w ++ cs).head? = some '/') :=
      fun both => ne_slash_of_isBlank first both.1
    rw [List.cons_append, beforeComment_cons plain, ih others, List.cons_append]

theorem beforeComment_of_blank (blank : ∀ c ∈ w, isBlank c) : beforeComment w = w := by
  have same : beforeComment (w ++ []) = w ++ beforeComment [] := beforeComment_blank_append blank
  rwa [beforeComment, List.append_nil] at same

/-- A comment begins where it did, whatever is added behind it. -/
theorem beforeComment_append (cs : List Char) (apart : tail.head? ≠ some '/') :
    beforeComment (cs ++ tail) = beforeComment cs ∨
      beforeComment (cs ++ tail) = beforeComment cs ++ beforeComment tail := by
  fun_induction beforeComment cs with
  | case1 => exact .inr rfl
  | case2 => exact .inl rfl
  | case3 c cs plain ih =>
    have plain : ¬(c = '/' ∧ (cs ++ tail).head? = some '/') := by
      rintro ⟨rfl, second⟩
      cases cs with
      | nil => exact apart second
      | cons d cs =>
        cases second
        exact plain cs rfl rfl
    rw [List.cons_append, beforeComment_cons plain, List.cons_append]
    exact ih.imp (congrArg _) (congrArg _)

theorem mem_of_mem_beforeComment (h : c ∈ beforeComment cs) : c ∈ cs := by
  fun_induction beforeComment cs with
  | case1 => exact h
  | case2 => cases h
  | case3 d cs _ ih => exact (List.mem_cons.1 h).elim (· ▸ .head _) fun mem => .tail _ (ih mem)

end characters

/-! ## Lines -/

section lines

variable {line note before after added : String}

theorem clean_append (apart : added.toList.head? ≠ some '/')
    (nothing : ∀ c ∈ beforeComment added.toList, isBlank c) : clean (line ++ added) = clean line := by
  rw [clean, clean, Text.trim, Text.trim, String.toList_ofList, String.toList_ofList,
    String.toList_append]
  rcases beforeComment_append line.toList apart with same | same
  · rw [same]
  · rw [same, Text.trimChars_append_blank nothing]

theorem clean_commented : clean (line ++ " //" ++ note) = clean line := by
  rw [String.append_assoc]
  refine clean_append ?_ ?_ <;> rw [String.toList_append]
  · exact nofun
  · exact List.forall_mem_singleton.2 rfl

theorem clean_blank_append (blank : ∀ c ∈ before.toList, isBlank c) :
    clean (before ++ line) = clean line := by
  rw [clean, clean, Text.trim, Text.trim, String.toList_ofList, String.toList_ofList,
    String.toList_append, beforeComment_blank_append blank, Text.trimChars_blank_append blank]

theorem clean_spaced (blank : Text.allBlank before.toList) (blank' : Text.allBlank after.toList) :
    clean (before ++ line ++ after) = clean line := by
  have behind := List.all_eq_true.1 blank'
  have apart : after.toList.head? ≠ some '/' := fun same =>
    ne_slash_of_isBlank (behind _ (List.mem_of_mem_head? same)) rfl
  rw [clean_append apart ((beforeComment_of_blank behind).symm ▸ behind),
    clean_blank_append (List.all_eq_true.1 blank)]

theorem clean_comment (blank : Text.allBlank before.toList) :
    clean (before ++ "//" ++ note) = "" := by
  rw [String.append_assoc, clean_blank_append (List.all_eq_true.1 blank), clean,
    String.toList_append]
  rfl

theorem mem_of_mem_clean {c : Char} (h : c ∈ (clean line).toList) : c ∈ line.toList := by
  simp only [clean, Text.trim, String.toList_ofList, Text.trimChars, Text.trimEnd, Text.trimStart,
    List.mem_reverse] at h
  have trimmed := List.mem_reverse.1 ((List.dropWhile_sublist _).mem h)
  exact mem_of_mem_beforeComment ((List.dropWhile_sublist _).mem trimmed)

end lines

end Section

end LootFilter
