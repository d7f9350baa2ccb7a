import LootFilter.Proofs.Script.Comment
import Mathlib.Data.List.Basic

/-!
# Sections by runs of lines

The lines between two blank ones are a run, and a run is at most one section. What makes a run a
section is said here of the whole run; a script is read line by line. Both come to the same
sections, so every line of the text of a section stems from the line of the script where it is
looked for.
-/

namespace LootFilter

namespace Section

abbrev NumberedLine := String × Nat

def numbered (lines : List String) : List NumberedLine := lines.zipIdx 1

def runs (lines : List String) : List (List NumberedLine) :=
  ((numbered lines).splitOnP fun line => isBlankLine line.1).filter (!·.isEmpty)

/-- Whether `part` stands in `xs` between two elements that satisfy `p`, or an end of `xs`, and none
of its own does. -/
structure IsPart {α : Type} (p : α → Bool) (xs part : List α) : Prop where
  inside : ∀ x ∈ part, p x = false
  maximal : ∃ front behind, xs = front ++ part ++ behind ∧
    (∀ x ∈ front.getLast?, p x) ∧ ∀ x ∈ behind.head?, p x

/-- Whether the run is one of lines that are not blank, and could be no longer. -/
def IsRun (lines : List String) (run : List NumberedLine) : Prop :=
  run ≠ [] ∧ IsPart (fun line => isBlankLine line.1) (numbered lines) run

/-- The section of a run. Lines of which nothing is left are dropped at the start of the run. -/
def ofRun (run : List NumberedLine) : Option Section :=
  match run.dropWhile fun line => clean line.1 = "" with
  | [] => none
  | (line, number) :: lines =>
    let first := takeNegation (clean line)
    let text := "\n".intercalate (first.2 :: lines.map fun line => clean line.1)
    if Text.allBlank text.toList then none
    else
      some
        { startLine := number
          negated := first.1
          text
          raw := "\n".intercalate (line :: lines.map Prod.fst) }

/-! ## Reading a run -/

def draftOf (run : List NumberedLine) : Option Draft :=
  run.foldl (fun draft line => extend line.2 draft line.1) none

theorem extend_all (draft : Draft) (run : List NumberedLine) :
    run.foldl (fun draft line => extend line.2 draft line.1) (some draft) =
      some { draft with
        cleaned := draft.cleaned ++ run.map fun line => clean line.1
        raw := draft.raw ++ run.map Prod.fst } := by
  induction run generalizing draft with
  | nil => simp
  | cons line run ih =>
    rw [List.foldl_cons]
    refine (ih (draft.add line.1)).trans ?_
    simp [Draft.add]

theorem finish_draftOf (run : List NumberedLine) : (draftOf run).bind Draft.finish = ofRun run := by
  induction run with
  | nil => rfl
  | cons line run ih =>
    by_cases left : clean line.1 = ""
    · have skipped : extend line.2 none line.1 = none := by simp [extend, Draft.ofLine?, left]
      have dropped : ofRun (line :: run) = ofRun run := by simp [ofRun, left]
      rw [dropped, ← ih, draftOf, List.foldl_cons, skipped]
      rfl
    · have opened : extend line.2 none line.1 = some
          { startLine := line.2
            negated := (takeNegation (clean line.1)).1
            cleaned := [(takeNegation (clean line.1)).2]
            raw := [line.1] } := by
        simp [extend, Draft.ofLine?, left]
      rw [draftOf, List.foldl_cons, opened, extend_all]
      simp [ofRun, left, Draft.finish, Draft.text]

/-- Behind a run, reading on goes on with the run. -/
theorem scan_eq (next : Nat) (run : List NumberedLine) (lines : List String) :
    scan next (draftOf run) (lines ++ [""]) =
      ((lines.zipIdx next).splitOnPPrepend (fun line => isBlankLine line.1) run.reverse).filterMap
        ofRun := by
  induction lines generalizing next run with
  | nil =>
    have blank : isBlankLine "" = true := by decide
    simp only [List.nil_append, scan, if_pos blank, List.append_nil, finish_draftOf]
    rw [List.zipIdx_nil, List.splitOnPPrepend_nil, List.reverse_reverse, List.filterMap_cons]
    cases ofRun run <;> rfl
  | cons line lines ih =>
    rw [List.zipIdx_cons, List.cons_append, scan, List.splitOnPPrepend_cons_eq_if]
    split
    · rw [List.reverse_reverse, finish_draftOf, List.filterMap_cons]
      refine (congrArg _ (ih (next + 1) [])).trans ?_
      cases ofRun run <;> rfl
    · have extended : extend next (draftOf run) line = draftOf (run ++ [(line, next)]) := by
        rw [draftOf, draftOf, List.foldl_append]
        rfl
      rw [extended, ih, List.reverse_append]
      rfl

theorem ofRun_nil : ofRun [] = none := rfl

theorem sectionsOfLines_eq (lines : List String) :
    sectionsOfLines lines = (runs lines).filterMap ofRun := by
  have read := scan_eq 1 [] lines
  rw [List.reverse_nil, List.splitOnPPrepend_nil_right] at read
  rw [sectionsOfLines, runs, List.filterMap_filter]
  refine read.trans (List.filterMap_congr fun run _ => ?_)
  cases run with
  | nil => exact ofRun_nil
  | cons line run => simp

/-! ## Runs -/

section parts

variable {α : Type} {p : α → Bool} {xs part : List α}

theorem flatten_splitOnP (p : α → Bool) (xs : List α) :
    (xs.splitOnP p).flatten = xs.filter fun x => !p x := by
  induction xs with
  | nil => rfl
  | cons x xs ih =>
    rw [List.splitOnP_cons_eq_if_modifyHead, List.filter_cons]
    cases sep : p x with
    | true => simpa using ih
    | false =>
      obtain ⟨first, rest, parts⟩ := List.exists_cons_of_ne_nil (List.splitOnP_ne_nil p xs)
      rw [parts] at ih ⊢
      simpa using ih

theorem isPart_of_mem (before : List α) (inside : ∀ x ∈ before, p x = false)
    (mem : part ∈ xs.splitOnPPrepend p before) : IsPart p (before.reverse ++ xs) part := by
  induction xs generalizing before with
  | nil =>
    rw [List.splitOnPPrepend_nil, List.mem_singleton] at mem
    subst mem
    exact ⟨by simpa using inside, [], [], by simp, nofun, nofun⟩
  | cons x xs ih =>
    rw [List.splitOnPPrepend_cons_eq_if] at mem
    split at mem
    · rename_i sep
      rcases List.mem_cons.1 mem with rfl | mem
      · exact ⟨by simpa using inside, [], x :: xs, by simp, nofun, by simpa using sep⟩
      · obtain ⟨inside, front, behind, rfl, last, head⟩ := ih [] nofun mem
        refine ⟨inside, before.reverse ++ x :: front, behind, by simp, ?_, head⟩
        rw [List.getLast?_append_cons, List.getLast?_cons]
        cases found : front.getLast? with
        | none => simpa using sep
        | some y => simpa using last y found
    · rename_i other
      have more : ∀ y ∈ x :: before, p y = false :=
        List.forall_mem_cons.2 ⟨by simpa using other, inside⟩
      simpa using ih (x :: before) more mem

theorem mem_of_isPart (h : IsPart p xs part) : part ∈ xs.splitOnP p := by
  obtain ⟨full, front, behind, rfl, last, head⟩ := h
  have tail : part ∈ (part ++ behind).splitOnP p := by
    cases behind with
    | nil => rw [List.append_nil, List.splitOnP_eq_singleton full, List.mem_singleton]
    | cons y behind =>
      rw [List.splitOnP_append_cons_of_forall_mem full y (head y rfl)]
      exact .head _
  rcases front.eq_nil_or_concat with rfl | ⟨front, x, rfl⟩
  · simpa using tail
  · have sep : p x := last x (by simp)
    rw [List.append_assoc, List.concat_append, List.splitOnP_append_cons _ _ sep]
    exact List.mem_append_right _ tail

end parts

theorem mem_runs_iff {lines : List String} {run : List NumberedLine} :
    run ∈ runs lines ↔ IsRun lines run := by
  rw [runs, List.mem_filter, and_comm]
  refine and_congr (by cases run <;> simp) ⟨fun mem => ?_, mem_of_isPart⟩
  exact isPart_of_mem [] nofun mem

theorem pairwise_numbered (lines : List String) :
    (numbered lines).Pairwise fun line other => line.2 < other.2 := by
  refine List.pairwise_map.1 ?_
  rw [numbered, List.zipIdx_map_snd]
  exact List.pairwise_lt_range'

theorem pairwise_runs (lines : List String) : (runs lines).Pairwise fun run other =>
    ∀ line ∈ run, ∀ line' ∈ other, line.2 < line'.2 := by
  refine (List.pairwise_flatten.1 ?_).2
  rw [runs, List.flatten_filter_not_isEmpty, flatten_splitOnP]
  exact (pairwise_numbered lines).filter _

/-! ## Lines of sections -/

section lines

variable {lines : List String} {run : List NumberedLine} {s : Section}

theorem ofRun_eq_some (h : ofRun run = some s) : ∃ skipped line rest,
    run = skipped ++ (line, s.startLine) :: rest ∧
      s.text = "\n".intercalate
        ((takeNegation (clean line)).2 :: rest.map fun line => clean line.1) ∧
      s.raw = "\n".intercalate (line :: rest.map Prod.fst) := by
  have whole := List.takeWhile_append_dropWhile (p := fun line => clean line.1 = "") (l := run)
  unfold ofRun at h
  split at h
  · cases h
  · rename_i line number rest left
    dsimp only at h
    split at h
    · cases h
    · cases h
      exact ⟨_, line, rest, by rw [← left, whole], rfl, rfl⟩

theorem pairwise_sections (lines : List String) :
    (sectionsOfLines lines).Pairwise fun s t => s.startLine < t.startLine := by
  rw [sectionsOfLines_eq]
  refine (pairwise_runs lines).filterMap _ fun run other before s found t found' => ?_
  obtain ⟨_, line, _, rfl, -⟩ := ofRun_eq_some found
  obtain ⟨_, line', _, rfl, -⟩ := ofRun_eq_some found'
  exact before (line, s.startLine) (by simp) (line', t.startLine) (by simp)

theorem mem_of_mem_takeNegation {c : Char} {line : String} (h : c ∈ (takeNegation line).2.toList) :
    c ∈ line.toList := by
  unfold takeNegation at h
  split at h
  · rename_i rest begins
    rw [begins]
    exact List.mem_cons_of_mem _ (by simpa using h)
  · exact h

theorem splitOn_joined {parts : List String} (some : parts ≠ [])
    (whole : ∀ part ∈ parts, '\n' ∉ part.toList) :
    ("\n".intercalate parts).toList.splitOn '\n' = parts.map String.toList := by
  have joined : ("\n".intercalate parts).toList = ['\n'].intercalate (parts.map String.toList) := by
    simp
  rw [joined, List.splitOn_intercalate]
  · simpa using whole
  · simpa using some

/-- Whether each line of the text of the section is what is left of the line of the script that
stands as far behind the start of the section. -/
structure StemsFrom (lines : List String) (s : Section) : Prop where
  counted : 0 < s.startLine
  line : ∀ n part, (s.text.toList.splitOn '\n')[n]? = some part →
    ∃ line, lines[s.startLine - 1 + n]? = some line ∧
      part = (if n = 0 then (takeNegation (clean line)).2 else clean line).toList ∧
      (s.raw.toList.splitOn '\n')[n]? = some line.toList

theorem of_numbered {front rest behind : List NumberedLine} {first : String} {number : Nat}
    (split : numbered lines = front ++ (first, number) :: rest ++ behind) :
    number = front.length + 1 ∧
      lines.drop front.length = (first :: rest.map Prod.fst) ++ behind.map Prod.fst := by
  constructor
  · have placed : (numbered lines)[front.length]? = some (first, number) := by
      rw [split, List.append_assoc, List.cons_append, List.getElem?_append_right (Nat.le_refl _),
        Nat.sub_self, List.getElem?_cons_zero]
    rw [numbered, List.getElem?_zipIdx] at placed
    obtain ⟨_, -, same⟩ := Option.map_eq_some_iff.1 placed
    rw [← (Prod.mk.inj same).2, Nat.add_comm]
  · have script : lines = front.map Prod.fst ++
        ((first :: rest.map Prod.fst) ++ behind.map Prod.fst) := by
      rw [← List.zipIdx_map_fst 1 lines]
      simpa [numbered] using congrArg (List.map Prod.fst) split
    rw [script, ← List.length_map Prod.fst, List.drop_left]

theorem stemsFrom_of_mem (whole : ∀ line ∈ lines, '\n' ∉ line.toList)
    (mem : s ∈ sectionsOfLines lines) : s.StemsFrom lines := by
  rw [sectionsOfLines_eq] at mem
  obtain ⟨run, isRun, found⟩ := List.mem_filterMap.1 mem
  obtain ⟨-, -, front, behind, split, -⟩ := mem_runs_iff.1 isRun
  obtain ⟨skipped, first, rest, rfl, text, raw⟩ := ofRun_eq_some found
  rw [← List.append_assoc front skipped] at split
  obtain ⟨start, script⟩ := of_numbered split
  have kept : ∀ line ∈ first :: rest.map Prod.fst, '\n' ∉ line.toList := fun line mem =>
    whole line (List.drop_subset _ _ (script ▸ List.mem_append_left _ mem))
  obtain ⟨keptFirst, keptRest⟩ := List.forall_mem_cons.1 kept
  have raws : s.raw.toList.splitOn '\n' = (first :: rest.map Prod.fst).map String.toList := by
    rw [raw, splitOn_joined (List.cons_ne_nil _ _) kept]
  have texts : s.text.toList.splitOn '\n' =
      ((takeNegation (clean first)).2 :: rest.map fun line => clean line.1).map String.toList := by
    rw [text, splitOn_joined (List.cons_ne_nil _ _)]
    refine List.forall_mem_cons.2 ⟨fun mem => keptFirst ?_, List.forall_mem_map.2 fun line mem => ?_⟩
    · exact mem_of_mem_clean (mem_of_mem_takeNegation mem)
    · exact fun mem' => keptRest line.1 (List.mem_map_of_mem mem) (mem_of_mem_clean mem')
  refine ⟨start ▸ Nat.succ_pos _, fun n part found => ?_⟩
  rw [texts, List.getElem?_map] at found
  obtain ⟨cleaned, placed, rfl⟩ := Option.map_eq_some_iff.1 found
  rw [start, Nat.add_sub_cancel, ← List.getElem?_drop, script, raws]
  cases n with
  | zero =>
    rw [List.getElem?_cons_zero, Option.some.injEq] at placed
    subst placed
    exact ⟨first, by simp, by simp, by simp⟩
  | succ n =>
    rw [List.getElem?_cons_succ, List.getElem?_map] at placed
    obtain ⟨line, mem, rfl⟩ := Option.map_eq_some_iff.1 placed
    have reached : n < (rest.map Prod.fst).length := by
      simpa using (List.getElem?_eq_some_iff.1 mem).1
    refine ⟨line.1, ?_, by simp, by simp [mem]⟩
    rw [List.cons_append, List.getElem?_cons_succ, List.getElem?_append_left reached,
      List.getElem?_map, mem, Option.map_some]

/-- The sections of a script are those of its runs of lines that are not blank, in their order. If
no line has a line feed in it, the lines of each section's text stem from lines that follow each
other from the start of the section on. -/
theorem sectionsOfLines_runs (lines : List String) :
    sectionsOfLines lines = (runs lines).filterMap ofRun ∧
      (∀ run, run ∈ runs lines ↔ IsRun lines run) ∧
      (sectionsOfLines lines).Pairwise (fun s t => s.startLine < t.startLine) ∧
      ((∀ line ∈ lines, '\n' ∉ line.toList) →
        ∀ s ∈ sectionsOfLines lines, s.StemsFrom lines) :=
  ⟨sectionsOfLines_eq lines, fun _ => mem_runs_iff, pairwise_sections lines,
    fun whole _ mem => stemsFrom_of_mem whole mem⟩

/-- Two runs are only comments or only a mark. The first section starts behind a comment. -/
theorem sectionsOfLines_runs_marked :
    let lines := ["// a", " ", "^ // b", "//", "", "// c", "^^x // d", "y", "", "z"]
    (∀ line ∈ lines, '\n' ∉ line.toList) ∧
      sectionsOfLines lines = [⟨7, true, "^x\ny", "^^x // d\ny"⟩, ⟨10, false, "z", "z"⟩] ∧
      ∀ s ∈ sectionsOfLines lines, s.StemsFrom lines := by
  intro lines
  have whole : ∀ line ∈ lines, '\n' ∉ line.toList := by decide
  exact ⟨whole, by decide +kernel, (sectionsOfLines_runs lines).2.2.2 whole⟩

end lines

end Section

end LootFilter
