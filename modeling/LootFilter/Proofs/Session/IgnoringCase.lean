import LootFilter.Item.Lookup
import LootFilter.Proofs.Session.Tags
import LootFilter.Proofs.Text.Part

/-!
# Searches that ignore case

A search that ignores case compares the lower case of whole texts. It finds what an exact search
finds unless a sigma of the wanted text ends a word on its own and not within the text, or the other
way round.
-/

namespace LootFilter

namespace Text

variable {text wanted : String}

theorem contains_ordinal_iff :
    CaseMode.ordinal.contains text wanted ↔ wanted.toList <:+: text.toList :=
  occursIn_iff

theorem contains_ignoreCase_iff : CaseMode.ignoreCase.contains text wanted ↔
    lowerChars wanted.toList <:+: lowerChars text.toList := by
  change occursIn (lower wanted).toList (lower text).toList ↔ _
  rw [occursIn_iff, lower, lower, String.toList_ofList, String.toList_ofList]

theorem startsWith_ignoreCase_iff : CaseMode.ignoreCase.startsWith text wanted ↔
    lowerChars wanted.toList <+: lowerChars text.toList := by
  change (lower wanted).toList.isPrefixOf (lower text).toList ↔ _
  rw [List.isPrefixOf_iff_prefix, lower, lower, String.toList_ofList, String.toList_ofList]

theorem endsWith_ignoreCase_iff : CaseMode.ignoreCase.endsWith text wanted ↔
    lowerChars wanted.toList <:+ lowerChars text.toList := by
  change (lower wanted).toList.isSuffixOf (lower text).toList ↔ _
  rw [List.isSuffixOf_iff_suffix, lower, lower, String.toList_ofList, String.toList_ofList]

theorem isSteady_iff_contains : IsSteady wanted.toList ↔ ∀ text,
    CaseMode.ordinal.contains text wanted → CaseMode.ignoreCase.contains text wanted := by
  simp only [contains_ordinal_iff, contains_ignoreCase_iff]
  refine isSteady_iff.trans ⟨fun found text => found text.toList, fun found text => ?_⟩
  have same := found (String.ofList text)
  rwa [String.toList_ofList] at same

theorem containsAny_of_exactly {wanted : List String} (steady : ∀ w ∈ wanted, IsSteady w.toList)
    (h : containsAnyExactly text wanted) : containsAny text wanted := by
  obtain ⟨w, mem, within⟩ := List.any_eq_true.1 h
  exact List.any_eq_true.2 ⟨w, mem, isSteady_iff_contains.1 (steady w mem) text within⟩

end Text

namespace TagQuery

variable {it : Item} {wanted : String} {s : Session}

theorem any_answer_of_exact (steady : Text.IsSteady wanted.toList)
    (h : (exact wanted).answer it) : (any wanted).answer it := by
  obtain ⟨tag, mem, within⟩ := List.any_eq_true.1 h
  exact List.any_eq_true.2 ⟨tag, mem, Text.isSteady_iff_contains.1 steady tag within⟩

theorem askTags_new (new : (s.memo it).tags = []) (query : TagQuery) :
    ((Session.askTags it query).run s).1 = query.answer it := by
  rw [askTags_answer, new]
  rfl

theorem askTags_any_after_exact (new : (s.memo it).tags = []) :
    ((Session.askTags it (any wanted)).run ((Session.askTags it (exact wanted)).run s).2).1 =
      (any wanted).answer it := by
  have differ : (any wanted).key ≠ (exact wanted).key :=
    key_ne_of_char 6 (by simp [key])
  rw [askTags_answer, askTags_kept, if_neg differ, new]
  rfl

end TagQuery

namespace Text

theorem isSteady_iff_askTags : IsSteady wanted.toList ↔
    ∀ (it : Item) (s : Session), (s.memo it).tags = [] →
      let asked := (Session.askTags it (.exact wanted)).run s
      asked.1 → ((Session.askTags it (.any wanted)).run s).1 ∧
        ((Session.askTags it (.any wanted)).run asked.2).1 := by
  refine ⟨fun steady it s new found => ?_, fun found => ?_⟩
  · rw [TagQuery.askTags_new new] at found
    have answer := TagQuery.any_answer_of_exact steady found
    rw [TagQuery.askTags_new new, TagQuery.askTags_any_after_exact new]
    exact ⟨answer, answer⟩
  · refine isSteady_iff_contains.2 fun text within => ?_
    -- An item with the text as its only tag.
    let it : Item := { (default : Item) with attributes := { tags := [text] } }
    have exactly : ((Session.askTags it (.exact wanted)).run {}).1 := by
      rw [TagQuery.askTags_new rfl]
      simpa [TagQuery.answer, it]
    have asked := (found it {} rfl exactly).1
    rw [TagQuery.askTags_new rfl] at asked
    have tagged : containsIgnoringCase text wanted := by simpa [TagQuery.answer, it] using asked
    exact tagged

/-- What searches for a text that ignore case find of what exact searches for it find. -/
structure SearchesIgnoringCase (wanted : String) : Prop where
  equals : ∀ text, CaseMode.ordinal.equals text wanted → CaseMode.ignoreCase.equals text wanted
  /-- The beginning of a text is found just if the rest of the text leaves its sigmas what they
  are. -/
  startsWith : ∀ behind, CaseMode.ignoreCase.startsWith (wanted ++ behind) wanted ↔
    SigmasStay [] wanted.toList behind.toList
  endsWith : ∀ before, CaseMode.ignoreCase.endsWith (before ++ wanted) wanted ↔
    SigmasStay before.toList wanted.toList []
  contains : ∀ before behind, SigmasStay before.toList wanted.toList behind.toList →
    CaseMode.ignoreCase.contains (before ++ wanted ++ behind) wanted
  /-- The texts that are found wherever they occur are those whose sigmas are the same in all
  surroundings. -/
  anywhere : IsSteady wanted.toList ↔ ∀ text,
    CaseMode.ordinal.contains text wanted → CaseMode.ignoreCase.contains text wanted
  /-- Sigmas are the only characters that can get in the way. -/
  withoutSigma : 'Σ' ∉ wanted.toList → IsSteady wanted.toList
  /-- The same texts are found among the tags of every item, whether or not the exact query has
  been asked before. -/
  tags : IsSteady wanted.toList ↔ ∀ (it : Item) (s : Session), (s.memo it).tags = [] →
    let asked := (Session.askTags it (.exact wanted)).run s
    asked.1 → ((Session.askTags it (.any wanted)).run s).1 ∧
      ((Session.askTags it (.any wanted)).run asked.2).1
  /-- One of several texts is found if they are all such texts. -/
  containsAny : ∀ text others, (∀ w ∈ wanted :: others, IsSteady w.toList) →
    containsAnyExactly text (wanted :: others) → LootFilter.containsAny text (wanted :: others)

/-- A search that ignores case finds what an exact search finds as long as the sigmas of the wanted
text stay what they are. -/
theorem searches_ignoring_case (wanted : String) : SearchesIgnoringCase wanted where
  equals text same := by
    have same : text = wanted := of_decide_eq_true same
    rw [same]
    exact beq_self_eq_true _
  startsWith behind := by
    rw [startsWith_ignoreCase_iff, String.toList_append, prefix_lowerChars_iff]
  endsWith before := by
    rw [endsWith_ignoreCase_iff, String.toList_append, suffix_lowerChars_iff]
  contains before behind stay := by
    rw [contains_ignoreCase_iff, String.toList_append, String.toList_append]
    exact infix_lowerChars stay
  anywhere := isSteady_iff_contains
  withoutSigma := isSteady_of_not_mem
  tags := isSteady_iff_askTags
  containsAny _ _ := containsAny_of_exactly

/-- The sigma at the end of a word is not found by itself, and a beginning of a word that ends in a
sigma is not found either. -/
theorem not_found_ignoring_case :
    (CaseMode.ordinal.contains "ΑΣ" "Σ" ∧ ¬CaseMode.ignoreCase.contains "ΑΣ" "Σ") ∧
    (CaseMode.ordinal.endsWith "ΑΣ" "Σ" ∧ ¬CaseMode.ignoreCase.endsWith "ΑΣ" "Σ") ∧
    (CaseMode.ordinal.startsWith "ΑΣΑ" "ΑΣ" ∧ ¬CaseMode.ignoreCase.startsWith "ΑΣΑ" "ΑΣ") ∧
    (containsAnyExactly "ΑΣ" ["Σ"] ∧ ¬LootFilter.containsAny "ΑΣ" ["Σ"]) ∧
    let it : Item := { (default : Item) with attributes := { tags := ["ΑΣ"] } }
    ((Session.askTags it (.exact "Σ")).run {}).1 ∧ ¬((Session.askTags it (.any "Σ")).run {}).1 := by
  decide +kernel

end Text

end LootFilter
