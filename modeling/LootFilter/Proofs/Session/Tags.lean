import LootFilter.Session.Session

/-!
# Tag queries

The answer of a tag query is kept under the query's key. Only queries about lists of tags can share
a key with a query that has another answer, so only these can be given a wrong one.
-/

namespace LootFilter

namespace TagQuery

/-- Whether the query is about a list of tags that comes with it, not about the tags of the item. -/
def IsAboutList : TagQuery → Prop
  | any _ | exact _ => False
  | anyIn .. | exactIn .. => True

/-- Whether two queries about lists are of one kind, and their answers are kept together. -/
def Meets : TagQuery → TagQuery → Prop
  | anyIn tags wanted, anyIn tags' wanted' =>
    sortedJoin tags ++ "_" ++ Text.lower wanted = sortedJoin tags' ++ "_" ++ Text.lower wanted'
  | exactIn tags wanted, exactIn tags' wanted' =>
    sortedJoin tags ++ "_" ++ wanted = sortedJoin tags' ++ "_" ++ wanted'
  | _, _ => False

variable {query other : TagQuery} {it : Item}

theorem key_ne_of_char (place : Nat) (h : query.key.toList[place]? ≠ other.key.toList[place]?) :
    query.key ≠ other.key := fun same => h (by rw [same])

/-- The keys of the four kinds of queries differ in how they begin. -/
theorem key_eq_iff : query.key = other.key ↔ query.Meets other ∨
    (∃ wanted wanted', query = any wanted ∧ other = any wanted' ∧
      Text.lower wanted = Text.lower wanted') ∨
    ∃ wanted, query = exact wanted ∧ other = exact wanted := by
  cases query <;> cases other
  -- One key for two kinds would have two letters at the place where these kinds' keys differ.
  case any.any => simp [key, Meets]
  case exact.exact => simp [key, Meets, eq_comm]
  case anyIn.anyIn | exactIn.exactIn => simp [key, Meets, String.append_assoc]
  case any.exact | exact.any =>
    simpa [Meets] using key_ne_of_char 6 (by simp [key])
  case anyIn.exactIn | exactIn.anyIn =>
    simpa [Meets] using key_ne_of_char 4 (by simp [key])
  all_goals simpa [Meets] using key_ne_of_char 0 (by simp [key])

theorem answer_eq_of_key (single : ¬query.IsAboutList) (h : query.key = other.key) :
    query.answer it = other.answer it := by
  rcases key_eq_iff.1 h with meets | ⟨wanted, wanted', rfl, rfl, same⟩ | ⟨wanted, rfl, rfl⟩
  · cases query with
    | any | exact => cases meets
    | anyIn | exactIn => exact (single trivial).elim
  · simp only [answer, Text.containsIgnoringCase, same]
  · rfl

/-! ## Sequences of queries -/

/-- What a query is answered if the answers `kept` are kept with the item, and it is one of
`queries`: what is kept under its key, or else the answer of the first query with its key. -/
def answerAmong (it : Item) (kept : List (String × Bool)) (queries : List TagQuery)
    (query : TagQuery) : Bool :=
  (kept.lookup query.key).getD (((queries.find? (·.key = query.key)).getD query).answer it)

theorem askTags_hit {s : Session} {b : Bool} (h : (s.memo it).tags.lookup query.key = some b) :
    (Session.askTags it query).run s = (b, s) := by
  change Session.askTags it query s = _
  simp only [Session.askTags, h]

theorem askTags_miss {s : Session} (h : (s.memo it).tags.lookup query.key = none) :
    (Session.askTags it query).run s = (query.answer it, s.setMemo it
      { s.memo it with tags := (query.key, query.answer it) :: (s.memo it).tags }) := by
  change Session.askTags it query s = _
  simp only [Session.askTags, h]

theorem askTags_answer (s : Session) : ((Session.askTags it query).run s).1 =
    ((s.memo it).tags.lookup query.key).getD (query.answer it) := by
  cases found : (s.memo it).tags.lookup query.key with
  | some b => rw [askTags_hit found, Option.getD_some]
  | none => rw [askTags_miss found, Option.getD_none]

theorem askTags_kept (s : Session) (key : String) :
    (((Session.askTags it query).run s).2.memo it).tags.lookup key =
      if key = query.key then some ((Session.askTags it query).run s).1
      else (s.memo it).tags.lookup key := by
  cases found : (s.memo it).tags.lookup query.key with
  | some b =>
    rw [askTags_hit found]
    split
    · rename_i same
      rw [same, found]
    · rfl
  | none =>
    rw [askTags_miss found]
    simp only [Session.memo, Session.setMemo, if_true, Option.getD_some, List.lookup_cons]
    by_cases same : key = query.key
    · simp only [same, beq_self_eq_true, if_true]
    · simp only [beq_eq_false_iff_ne.2 same, if_neg same]

theorem answers_eq_map (queries : List TagQuery) (s : Session) :
    ((queries.mapM (Session.askTags it)).run s).1 =
      queries.map (answerAmong it (s.memo it).tags queries) := by
  induction queries generalizing s with
  | nil => rfl
  | cons first rest ih =>
    rw [List.mapM_cons]
    change ((Session.askTags it first).run s).1 ::
      ((rest.mapM (Session.askTags it)).run ((Session.askTags it first).run s).2).1 = _
    have head : answerAmong it (s.memo it).tags (first :: rest) first =
        ((Session.askTags it first).run s).1 := by
      simp [answerAmong, askTags_answer]
    rw [ih, List.map_cons, head]
    congr 1
    -- What is kept for the rest is what was kept before, and the answer of the first query.
    refine List.map_congr_left fun query _ => ?_
    unfold answerAmong
    rw [askTags_kept]
    by_cases same : query.key = first.key
    · rw [if_pos same, Option.getD_some, askTags_answer, ← same,
        List.find?_cons_of_pos (by simpa using same.symm), Option.getD_some]
    · rw [if_neg same, List.find?_cons_of_neg (by simpa using Ne.symm same)]

/-- Queries of which no answer is kept yet all get their own answers just if those about lists
that are kept together have the same answer. -/
theorem answers_eq_iff (it : Item) (queries : List TagQuery) (s : Session) :
    ((queries.mapM (Session.askTags it)).run s.withNewItems).1 = queries.map (answer it) ↔
      ∀ query ∈ queries, ∀ other ∈ queries, query.Meets other →
        query.answer it = other.answer it := by
  have first (query : TagQuery) (mem : query ∈ queries) : ∃ other ∈ queries,
      other.key = query.key ∧ queries.find? (·.key = query.key) = some other := by
    cases found : queries.find? (·.key = query.key) with
    | none =>
      have missing := List.find?_eq_none.1 found query mem
      exact (missing (decide_eq_true rfl)).elim
    | some other =>
      have named := List.find?_some found
      exact ⟨other, List.mem_of_find?_eq_some found, of_decide_eq_true named, rfl⟩
  rw [answers_eq_map, List.map_inj_left]
  change (∀ query ∈ queries, ((queries.find? (·.key = query.key)).getD query).answer it = _) ↔ _
  constructor
  · intro own query mem other mem' meets
    have same : query.key = other.key := key_eq_iff.2 (.inl meets)
    rw [← own query mem, ← own other mem', same]
    obtain ⟨_, _, _, found⟩ := first other mem'
    rw [found, Option.getD_some, Option.getD_some]
  · intro agree query mem
    obtain ⟨other, mem', same, found⟩ := first query mem
    rw [found, Option.getD_some]
    rcases key_eq_iff.1 same with meets | single
    · exact agree other mem' query mem meets
    · refine answer_eq_of_key ?_ same
      rcases single with ⟨_, _, rfl, -⟩ | ⟨_, rfl, -⟩ <;> exact id

/-- The answer for the tag "a_b" and the text "a" is kept, and given, for the tag "a" and the text
"b_a", too. -/
theorem answers_ne :
    ((([anyIn ["a_b"] "a", anyIn ["a"] "b_a"] : List TagQuery).mapM
      (Session.askTags default)).run {}).1 = [true, true] ∧
      answer default (anyIn ["a"] "b_a") = false := by
  decide +kernel

end TagQuery

end LootFilter
