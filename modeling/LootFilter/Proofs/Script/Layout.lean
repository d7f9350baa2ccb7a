import LootFilter.Proofs.Script.Comment
import LootFilter.Proofs.Script.Seam
import Mathlib.Data.List.Forall2
import Mathlib.Logic.Relation

/-!
# Comments and layout

Comments, white space around lines and the number of blank lines make no difference to what the
sections of a script say, only to where they stand and to how they are written.
-/

namespace LootFilter

namespace Section

open Text (isBlank)

/-- Two lines that say the same in a section. -/
structure SameLine (line line' : String) : Prop where
  blank : isBlankLine line = isBlankLine line'
  clean : clean line = clean line'

theorem SameLine.refl (line : String) : SameLine line line := ⟨rfl, rfl⟩

section addition

variable {line note before after : String} (visible : ¬isBlankLine line)

include visible

theorem isBlankLine_around : isBlankLine line = isBlankLine (before ++ line ++ after) := by
  have seen : line.toList.all isBlank = false := Bool.eq_false_iff.2 visible
  rw [isBlankLine, isBlankLine, Text.allBlank, Text.allBlank, String.toList_append,
    String.toList_append, List.all_append, List.all_append, seen, Bool.and_false, Bool.false_and]

theorem SameLine.commented : SameLine line (line ++ " //" ++ note) := by
  refine ⟨?_, clean_commented.symm⟩
  have around : isBlankLine line = isBlankLine ("" ++ line ++ (" //" ++ note)) :=
    isBlankLine_around visible
  rwa [String.empty_append, ← String.append_assoc] at around

theorem SameLine.spaced (blank : Text.allBlank before.toList)
    (blank' : Text.allBlank after.toList) : SameLine line (before ++ line ++ after) :=
  ⟨isBlankLine_around visible, (clean_spaced blank blank').symm⟩

end addition

/-! ## Sections of lines that say the same -/

/-- What a section says. -/
def content (s : Section) : Bool × String := (s.negated, s.text)

def Draft.content (draft : Draft) : Bool × List String := (draft.negated, draft.cleaned)

section same

variable {draft draft' : Option Draft} (same : draft.map Draft.content = draft'.map Draft.content)

include same

theorem content_finish :
    (draft.bind Draft.finish).toList.map content = (draft'.bind Draft.finish).toList.map content := by
  cases draft with
  | none =>
    cases draft' with
    | none => rfl
    | some => cases same
  | some draft =>
    cases draft' with
    | none => cases same
    | some draft' =>
      obtain ⟨negated, cleaned⟩ := Prod.mk.inj (Option.some.inj same)
      have text : draft.text = draft'.text := congrArg "\n".intercalate cleaned
      rw [Option.bind_some, Option.bind_some, Draft.finish, Draft.finish, negated, text]
      split <;> rfl

theorem content_extend {line line' : String} (clean : clean line = clean line') (next next' : Nat) :
    (extend next draft line).map Draft.content = (extend next' draft' line').map Draft.content := by
  cases draft with
  | none =>
    cases draft' with
    | none =>
      rw [extend, extend, Draft.ofLine?, Draft.ofLine?, clean]
      split <;> rfl
    | some => cases same
  | some draft =>
    cases draft' with
    | none => cases same
    | some draft' =>
      obtain ⟨negated, cleaned⟩ := Prod.mk.inj (Option.some.inj same)
      simp only [extend, Draft.add, Option.map_some, Draft.content, negated, cleaned, clean]

theorem content_scan {lines lines' : List String} (alike : List.Forall₂ SameLine lines lines')
    (next next' : Nat) :
    (scan next draft lines).map content = (scan next' draft' lines').map content := by
  induction alike generalizing draft draft' next next' with
  | nil => rfl
  | cons first _ ih =>
    rw [scan, scan, first.blank]
    split
    · rw [List.map_append, List.map_append, content_finish same, ih rfl]
    · exact ih (content_extend same first.clean next next') ..

end same

theorem same_refl (lines : List String) : List.Forall₂ SameLine lines lines :=
  List.forall₂_same.2 fun line _ => .refl line

theorem content_scan_moved (draft : Option Draft) (next next' : Nat) (lines : List String) :
    (scan next draft lines).map content = (scan next' draft lines).map content :=
  content_scan rfl (same_refl lines) next next'

/-! ## Places -/

section places

variable {next : Nat} {draft : Option Draft} {before run after : List String} {line : String}

theorem extend_of_clean (nothing : clean line = "") : extend next none line = none := by
  rw [extend, Draft.ofLine?, nothing]
  rfl

theorem draftAfter_of_clean (nothing : ∀ line ∈ run, clean line = "") :
    draftAfter next none run = none := by
  induction run generalizing next with
  | nil => rfl
  | cons line run ih =>
    obtain ⟨first, others⟩ := List.forall_mem_cons.1 nothing
    rw [draftAfter, extend_of_clean first, ite_self, ih others]

/-- Behind a blank line, and at the start, no section is being read. -/
theorem draftAfter_of_blank (ends : ∀ line ∈ before.getLast?, isBlankLine line) :
    draftAfter next none before = none := by
  rcases before.eq_nil_or_concat with rfl | ⟨before, line, rfl⟩
  · rfl
  · have blank := ends line (by simp)
    rw [List.concat_eq_append, draftAfter_append, draftAfter, if_pos blank]
    rfl

theorem scan_cons_blank (blank : isBlankLine line) : scan next draft (line :: after) =
    (draft.bind Draft.finish).toList ++ scan (next + 1) none after :=
  if_pos blank

theorem scan_cons_clean (nothing : clean line = "") :
    scan next none (line :: after) = scan (next + 1) none after := by
  rw [scan, extend_of_clean nothing]
  exact ite_self _

end places

/-! ## Edits -/

/-- Changes of a script to its comments and its layout. -/
inductive Edit : List String → List String → Prop
  /-- A comment behind a line that is not blank. -/
  | comment (before after : List String) (line note : String) : ¬isBlankLine line →
    Edit (before ++ line :: after) (before ++ (line ++ " //" ++ note) :: after)
  /-- White space around a line that is not blank. -/
  | space (before after : List String) (line front back : String) : ¬isBlankLine line →
    Text.allBlank front.toList → Text.allBlank back.toList →
    Edit (before ++ line :: after) (before ++ (front ++ line ++ back) :: after)
  /-- A line that is only a comment, behind a blank line or the start of the script and lines of
  which nothing is left. -/
  | remark (before skipped after : List String) (front note : String) :
    (∀ line ∈ before.getLast?, isBlankLine line) → (∀ line ∈ skipped, clean line = "") →
    Text.allBlank front.toList →
    Edit (before ++ skipped ++ after) (before ++ skipped ++ (front ++ "//" ++ note) :: after)
  /-- A blank line behind or in front of another one, or at an end of the script. -/
  | blank (before after : List String) (line : String) : isBlankLine line →
    (∀ line ∈ before.getLast?, isBlankLine line) ∨ (∀ line ∈ after.head?, isBlankLine line) →
    Edit (before ++ after) (before ++ line :: after)

section edits

variable {lines lines' : List String}

theorem content_line (before after : List String) {line line' : String} (same : SameLine line line') :
    (sectionsOfLines (before ++ line :: after)).map content =
      (sectionsOfLines (before ++ line' :: after)).map content := by
  rw [sectionsOfLines, sectionsOfLines, List.append_assoc, List.append_assoc]
  exact content_scan rfl (List.rel_append (same_refl before) (.cons same (same_refl _))) 1 1

/-- An inserted line makes no difference if it makes none to what is read from there on. -/
theorem content_insert {before after : List String} {line : String}
    (same : ∀ next, (scan next (draftAfter 1 none before) (line :: (after ++ [""]))).map content =
      (scan next (draftAfter 1 none before) (after ++ [""])).map content) :
    (sectionsOfLines (before ++ after)).map content =
      (sectionsOfLines (before ++ line :: after)).map content := by
  rw [sectionsOfLines, sectionsOfLines, List.append_assoc, List.append_assoc,
    scan_append 1 none before, scan_append 1 none before, List.map_append, List.map_append,
    List.cons_append, same]

theorem content_edit (edit : Edit lines lines') :
    (sectionsOfLines lines).map content = (sectionsOfLines lines').map content := by
  cases edit with
  | comment before after line note visible => exact content_line before after (.commented visible)
  | space before after line front back visible blank blank' =>
    exact content_line before after (.spaced visible blank blank')
  | remark before skipped after front note ends nothing blank =>
    have waits : draftAfter 1 none (before ++ skipped) = none := by
      rw [draftAfter_append, draftAfter_of_blank ends, draftAfter_of_clean nothing]
    refine content_insert fun next => ?_
    rw [waits, scan_cons_clean (clean_comment blank)]
    exact content_scan_moved ..
  | blank before after line blank beside =>
    refine content_insert fun next => ?_
    rw [scan_cons_blank blank]
    rcases beside with behind | front
    · rw [draftAfter_of_blank behind]
      exact content_scan_moved ..
    · obtain ⟨first, rest, starts, blank'⟩ :
          ∃ first rest, after ++ [""] = first :: rest ∧ isBlankLine first := by
        cases after with
        | nil => exact ⟨_, _, rfl, by decide⟩
        | cons first after => exact ⟨_, _, rfl, front first rfl⟩
      rw [starts, scan_cons_blank blank', scan_cons_blank blank', List.map_append, List.map_append,
        content_scan_moved none (next + 1 + 1) (next + 1)]
      exact List.map_append.symm

/-- Changes to comments and layout, and taking such changes back, leave the sections what they are,
in their order, but for the lines on which they start and the lines as written. -/
theorem sectionsOfLines_edits (edits : Relation.EqvGen Edit lines lines') :
    (sectionsOfLines lines).map (fun s => (s.negated, s.text)) =
      (sectionsOfLines lines').map fun s => (s.negated, s.text) := by
  induction edits with
  | rel _ _ edit => exact content_edit edit
  | refl => rfl
  | symm _ _ _ ih => exact ih.symm
  | trans _ _ _ _ _ first second => exact first.trans second

/-- The first line has lost a part of a text to a comment already. -/
theorem sectionsOfLines_edits_marked :
    let lines := ["^a == \"//\"", "", "b"]
    let lines' := [" ", "^a == \"//\" // c", "", "\t// d", "  b "]
    Relation.EqvGen Edit lines lines' ∧
      (sectionsOfLines lines').map (fun s => (s.negated, s.text)) =
        [(true, "a == \""), (false, "b")] := by
  intro lines lines'
  have opened : Edit lines (" " :: lines) := .blank [] lines " " (by decide) (.inl nofun)
  have commented : Edit (" " :: lines) [" ", "^a == \"//\" // c", "", "b"] :=
    .comment [" "] ["", "b"] "^a == \"//\"" " c" (by decide)
  have remarked : Edit [" ", "^a == \"//\" // c", "", "b"]
      [" ", "^a == \"//\" // c", "", "\t// d", "b"] :=
    .remark [" ", "^a == \"//\" // c", ""] [] ["b"] "\t" " d" (by decide) nofun (by decide)
  have spaced : Edit [" ", "^a == \"//\" // c", "", "\t// d", "b"] lines' :=
    .space [" ", "^a == \"//\" // c", "", "\t// d"] [] "b" "  " " " (by decide) (by decide)
      (by decide)
  have edits : Relation.EqvGen Edit lines lines' :=
    .trans _ _ _ (.rel _ _ opened) (.trans _ _ _ (.rel _ _ commented)
      (.trans _ _ _ (.rel _ _ remarked) (.rel _ _ spaced)))
  exact ⟨edits, (sectionsOfLines_edits edits).symm.trans (by decide +kernel)⟩

end edits

end Section

end LootFilter
