import LootFilter.Script.Section

/-!
# Scripts behind each other

A blank line between two scripts keeps them apart: the lines, and so the sections, of the whole are
those of the first script and those of the second one, which start further down.
-/

namespace LootFilter

/-! ## Lines -/

namespace Text

/-- What ends at the first line feed of the seam is a line of the first text, or an empty one. -/
theorem linesAfter_seam (line first second : List Char)
    (ending : (line.reverse ++ first).getLast? ≠ some '\r') :
    ∃ blanks, linesAfter line (first ++ '\n' :: '\n' :: second) =
        linesAfter line first ++ List.replicate (blanks + 1) [] ++ linesAfter [] second ∧
      (linesAfter line first).length + (blanks + 1) = first.count '\n' + 2 := by
  induction first generalizing line with
  | nil =>
    cases line with
    | nil => exact ⟨1, by simp [linesAfter], rfl⟩
    | cons c before =>
      have kept : c ≠ '\r' := fun same => ending (by simp [same])
      refine ⟨0, ?_, rfl⟩
      simp only [List.nil_append, linesAfter, if_true, List.isEmpty_cons]
      split
      · rename_i before' same
        exact (kept (List.cons.inj same).1).elim
      · rfl
  | cons c first ih =>
    by_cases feed : c = '\n'
    · subst feed
      have rest : ([].reverse ++ first).getLast? ≠ some '\r' := by
        cases first with
        | nil => simp
        | cons d first => simpa using ending
      obtain ⟨blanks, lines, counted⟩ := ih [] rest
      refine ⟨blanks, ?_, ?_⟩
      · simp only [List.cons_append, linesAfter, if_true, lines]
      · simp only [linesAfter, if_true, List.length_cons, List.count_cons_self]
        omega
    · have rest : ((c :: line).reverse ++ first).getLast? ≠ some '\r' := by simpa using ending
      obtain ⟨blanks, lines, counted⟩ := ih (c :: line) rest
      refine ⟨blanks, ?_, ?_⟩
      · simp only [List.cons_append, linesAfter, if_neg feed, lines]
      · simpa [linesAfter, feed] using counted

theorem lines_seam {first : String} (second : String)
    (ending : first.toList.getLast? ≠ some '\r') :
    ∃ blanks, lines (first ++ "\n\n" ++ second) =
        lines first ++ List.replicate (blanks + 1) "" ++ lines second ∧
      (lines first).length + (blanks + 1) = first.toList.count '\n' + 2 := by
  obtain ⟨blanks, lines, counted⟩ := linesAfter_seam [] first.toList second.toList ending
  have joined : (first ++ "\n\n" ++ second).toList =
      first.toList ++ '\n' :: '\n' :: second.toList := by simp
  refine ⟨blanks, ?_, by simpa [Text.lines] using counted⟩
  rw [Text.lines, joined, lines]
  simp [Text.lines]

end Text

/-! ## Sections -/

namespace Section

variable {next : Nat} {draft : Option Draft}

def moved (n : Nat) (s : Section) : Section := { s with startLine := s.startLine + n }

def Draft.moved (n : Nat) (draft : Draft) : Draft := { draft with startLine := draft.startLine + n }

theorem Draft.finish_moved (n : Nat) (draft : Draft) :
    (draft.moved n).finish = draft.finish.map (Section.moved n) := by
  have text : (draft.moved n).text = draft.text := rfl
  unfold finish
  rw [text]
  split <;> rfl

theorem extend_moved (n number : Nat) (draft : Option Draft) (line : String) :
    extend (number + n) (draft.map (Draft.moved n)) line =
      (extend number draft line).map (Draft.moved n) := by
  cases draft with
  | some draft => rfl
  | none =>
    by_cases left : (clean line).isEmpty
    · simp [extend, Draft.ofLine?, left]
    · simp [extend, Draft.ofLine?, Draft.moved, left]

theorem scan_moved (n : Nat) (lines : List String) :
    scan (next + n) (draft.map (Draft.moved n)) lines =
      (scan next draft lines).map (moved n) := by
  induction lines generalizing next draft with
  | nil => rfl
  | cons line lines ih =>
    simp only [scan]
    rw [Nat.add_right_comm next n 1]
    split
    · have finished : ((draft.map (Draft.moved n)).bind Draft.finish).toList =
          (draft.bind Draft.finish).toList.map (moved n) := by
        cases draft with
        | none => rfl
        | some draft =>
          rw [Option.map_some, Option.bind_some, Draft.finish_moved, Option.toList_map,
            Option.bind_some]
      rw [finished, List.map_append, ← ih]
      rfl
    · rw [extend_moved, ih]

theorem scan_blank (next : Nat) (draft : Option Draft) (lines : List String) :
    scan next draft ("" :: lines) =
      (draft.bind Draft.finish).toList ++ scan (next + 1) none lines :=
  if_pos (by decide)

theorem scan_blanks (next count : Nat) (lines : List String) :
    scan next none (List.replicate count "" ++ lines) = scan (next + count) none lines := by
  induction count generalizing next with
  | zero => rfl
  | succ count ih =>
    rw [List.replicate_succ, List.cons_append, scan_blank, ih, Nat.add_right_comm, Nat.add_assoc]
    rfl

/-- What is being read behind some lines. -/
def draftAfter (next : Nat) (draft : Option Draft) : List String → Option Draft
  | [] => draft
  | line :: lines =>
    draftAfter (next + 1) (if isBlankLine line then none else extend next draft line) lines

theorem draftAfter_append (next : Nat) (draft : Option Draft) (first second : List String) :
    draftAfter next draft (first ++ second) =
      draftAfter (next + first.length) (draftAfter next draft first) second := by
  induction first generalizing next draft with
  | nil => rfl
  | cons line first ih =>
    rw [List.cons_append, draftAfter, draftAfter, ih, List.length_cons, Nat.add_right_comm,
      Nat.add_assoc]

theorem scan_append (next : Nat) (draft : Option Draft) (first second : List String) :
    scan next draft (first ++ second) = scan next draft first ++
      scan (next + first.length) (draftAfter next draft first) second := by
  induction first generalizing next draft with
  | nil => rfl
  | cons line first ih =>
    rw [List.cons_append, scan, scan, draftAfter, ih, ih, List.length_cons,
      Nat.add_comm first.length 1, ← Nat.add_assoc]
    split
    · rw [List.append_assoc]
    · rfl

/-- A blank line ends the sections of the lines before it. -/
theorem scan_seam (next : Nat) (draft : Option Draft) (first second : List String) :
    scan next draft (first ++ "" :: second) =
      scan next draft (first ++ [""]) ++ scan (next + first.length + 1) none second := by
  rw [scan_append, scan_append, scan_blank, scan_blank, List.append_assoc, List.append_assoc]
  rfl

end Section

theorem sectionsOfLines_seam (count : Nat) (first second : List String) :
    sectionsOfLines (first ++ List.replicate (count + 1) "" ++ second) = sectionsOfLines first ++
      (sectionsOfLines second).map (Section.moved (first.length + (count + 1))) := by
  unfold sectionsOfLines
  rw [List.append_assoc, List.append_assoc, List.replicate_succ, List.cons_append,
    Section.scan_seam, Section.scan_blanks, ← Section.scan_moved]
  congr 2
  omega

/-- The sections of two scripts with a blank line between them. The second script starts behind the
lines of the first one, the last of them ended, and the blank line. -/
theorem sectionsOfText_seam {first : String} (second : String)
    (ending : first.toList.getLast? ≠ some '\r') :
    sectionsOfText (first ++ "\n\n" ++ second) = sectionsOfText first ++
      (sectionsOfText second).map (Section.moved (first.toList.count '\n' + 2)) := by
  obtain ⟨blanks, lines, counted⟩ := Text.lines_seam second ending
  unfold sectionsOfText
  rw [lines, sectionsOfLines_seam, counted]

end LootFilter
