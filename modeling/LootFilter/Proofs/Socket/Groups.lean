import LootFilter.Proofs.Socket.Seating

/-!
# Groups of sockets

A pattern is compared with every group of sockets alone, or with all sockets of the item. Order does
not matter to either way, and neither is hurt by further sockets.
-/

namespace LootFilter

namespace SocketPattern

variable {p q candidate larger : SocketPattern} {cs ds : List Char} {exact : Bool}

/-! ## Order -/

structure Alike (p q : SocketPattern) : Prop where
  letters : p.letters.Perm q.letters
  whites : p.whites = q.whites
  size : p.size = q.size

theorem ofChars_alike (h : cs.Perm ds) : (ofChars cs).Alike (ofChars ds) where
  letters := (h.filter isColoured).flatMap_right Text.lowerChar
  whites := h.countP_eq isWhite
  size := h.length_eq

theorem shortfall_congr (h : p.letters.Perm q.letters)
    (h' : candidate.letters.Perm larger.letters) :
    p.shortfall candidate = q.shortfall larger := by
  rw [shortfall_eq_card, shortfall_eq_card, Multiset.coe_eq_coe.2 h, Multiset.coe_eq_coe.2 h']

theorem Alike.isSatisfiedBy (h : p.Alike q) (h' : candidate.Alike larger) :
    p.isSatisfiedBy candidate exact = q.isSatisfiedBy larger exact := by
  rw [Bool.eq_iff_iff, isSatisfiedBy_iff, isSatisfiedBy_iff,
    shortfall_congr h.letters h'.letters, h.whites, h'.whites, h.size, h'.size]

/-! ## Further sockets -/

structure Within (candidate larger : SocketPattern) : Prop where
  letters : candidate.letters.Subperm larger.letters
  whites : candidate.whites ≤ larger.whites
  size : candidate.size ≤ larger.size

theorem ofChars_within (h : cs.Sublist ds) : (ofChars cs).Within (ofChars ds) where
  letters := ((h.filter isColoured).flatMap Text.lowerChar).subperm
  whites := h.countP_le
  size := h.length_le

theorem shortfall_antitone (h : candidate.letters.Subperm larger.letters) :
    p.shortfall larger ≤ p.shortfall candidate := by
  rw [shortfall_eq_card, shortfall_eq_card]
  exact Multiset.card_le_card (tsub_le_tsub_left (Multiset.coe_le.2 h) _)

theorem Within.isSatisfiedBy (h : candidate.Within larger)
    (satisfied : p.isSatisfiedBy candidate false) : p.isSatisfiedBy larger false := by
  obtain ⟨long, covered⟩ := isSatisfiedBy_iff.1 satisfied
  refine isSatisfiedBy_iff.2 ⟨Nat.le_trans long h.size, ?_⟩
  calc p.shortfall larger + p.whites
      ≤ p.shortfall candidate + p.whites := Nat.add_le_add_right (shortfall_antitone h.letters) _
    _ ≤ candidate.whites := covered
    _ ≤ larger.whites := h.whites

theorem isSatisfiedBy_of_exact (satisfied : p.isSatisfiedBy candidate true) :
    p.isSatisfiedBy candidate false := by
  obtain ⟨same, covered⟩ := isSatisfiedBy_iff.1 satisfied
  exact isSatisfiedBy_iff.2 ⟨Nat.le_of_eq (Eq.symm same), covered⟩

end SocketPattern

open SocketPattern

/-- Whether the groups are the same in another order, with their sockets in another order. -/
def Rearranged (groups others : List String) : Prop :=
  ∃ ordered : List String, groups.Perm ordered ∧
    List.Forall₂ (fun g h => g.toList.Perm h.toList) ordered others

/-- Whether there is a group more, or a socket more in one of the groups. -/
inductive Extended : List String → List String → Prop
  | group (front back : List String) (group : String) :
      Extended (front ++ back) (front ++ group :: back)
  | socket (front back : List String) (before after : List Char) (c : Char) :
      Extended (front ++ .ofList (before ++ after) :: back)
        (front ++ .ofList (before ++ c :: after) :: back)

variable {groups others : List String} {required other : String} {exact : Bool}

theorem allGroupsSatisfy_eq : allGroupsSatisfy groups required exact =
    (ofText required).isSatisfiedBy (ofChars (groups.flatMap String.toList)) exact := by
  rw [allGroupsSatisfy, ofText, ofText, String.toList_join]

theorem anyGroupSatisfies_iff : anyGroupSatisfies groups required exact ↔
    ∃ group ∈ groups, (ofText required).isSatisfiedBy (ofText group) exact := List.any_eq_true

theorem isSatisfiedBy_rearranged (h : cs.Perm ds) (same : required.toList.Perm other.toList) :
    (ofText required).isSatisfiedBy (ofChars cs) exact =
      (ofText other).isSatisfiedBy (ofChars ds) exact :=
  (ofChars_alike same).isSatisfiedBy (ofChars_alike h)

/-- What holds of a way of comparing a pattern with groups of sockets that only depends on how many
sockets there are of each kind. -/
structure Coherent (satisfies : List String → String → Bool → Bool) : Prop where
  of_exact (groups : List String) (required : String) :
    satisfies groups required true → satisfies groups required false
  rearranged (groups others : List String) (required other : String) (exact : Bool) :
    Rearranged groups others → required.toList.Perm other.toList →
      satisfies groups required exact = satisfies others other exact
  extended (groups others : List String) (required : String) :
    Extended groups others → satisfies groups required false → satisfies others required false

/-! ## Single groups -/

theorem any_congr_forall₂ {test test' : String → Bool} {R : String → String → Prop}
    (same : ∀ g h, R g h → test g = test' h) (h : List.Forall₂ R groups others) :
    groups.any test = others.any test' := by
  induction h with
  | nil => rfl
  | cons first _ ih => rw [List.any_cons, List.any_cons, same _ _ first, ih]

theorem anyGroupSatisfies_extended (h : Extended groups others)
    (satisfied : anyGroupSatisfies groups required false) :
    anyGroupSatisfies others required false := by
  obtain ⟨found, mem, fits⟩ := anyGroupSatisfies_iff.1 satisfied
  refine anyGroupSatisfies_iff.2 ?_
  cases h with
  | group front back group =>
    have stays : found ∈ front ++ group :: back :=
      ((List.sublist_cons_self group back).append_left front).subset mem
    exact ⟨found, stays, fits⟩
  | socket front back before after c =>
    rw [List.mem_append, List.mem_cons] at mem
    rcases mem with inFront | rfl | inBack
    · exact ⟨found, List.mem_append_left _ inFront, fits⟩
    · refine ⟨_, List.mem_append_right _ (.head _), ?_⟩
      simp only [ofText, String.toList_ofList] at fits ⊢
      have more := (List.sublist_cons_self c after).append_left before
      exact (ofChars_within more).isSatisfiedBy fits
    · exact ⟨found, List.mem_append_right _ (.tail _ inBack), fits⟩

theorem anyGroupSatisfies_coherent : Coherent anyGroupSatisfies where
  of_exact groups required satisfied := by
    obtain ⟨group, mem, satisfied⟩ := anyGroupSatisfies_iff.1 satisfied
    exact anyGroupSatisfies_iff.2 ⟨group, mem, isSatisfiedBy_of_exact satisfied⟩
  rearranged groups others required other exact h same := by
    obtain ⟨ordered, perm, each⟩ := h
    rw [anyGroupSatisfies, anyGroupSatisfies, perm.any_eq]
    exact any_congr_forall₂ (fun g h alike => isSatisfiedBy_rearranged alike same) each
  extended _ _ _ := anyGroupSatisfies_extended

/-! ## All groups together -/

theorem perm_flatMap_of_rearranged (h : Rearranged groups others) :
    (groups.flatMap String.toList).Perm (others.flatMap String.toList) := by
  obtain ⟨ordered, perm, each⟩ := h
  refine (perm.flatMap_right String.toList).trans ?_
  clear perm
  induction each with
  | nil => exact .nil
  | cons first _ ih => exact first.append ih

theorem sublist_flatMap_of_extended (h : Extended groups others) :
    (groups.flatMap String.toList).Sublist (others.flatMap String.toList) := by
  cases h with
  | group front back group =>
    exact ((List.sublist_cons_self group back).append_left front).flatMap String.toList
  | socket front back before after c =>
    rw [List.flatMap_append, List.flatMap_append, List.flatMap_cons, List.flatMap_cons,
      String.toList_ofList, String.toList_ofList]
    have more := (List.sublist_cons_self c after).append_left before
    exact (more.append_right _).append_left _

theorem allGroupsSatisfy_coherent : Coherent allGroupsSatisfy where
  of_exact groups required satisfied := isSatisfiedBy_of_exact satisfied
  rearranged groups others required other exact h same := by
    rw [allGroupsSatisfy_eq, allGroupsSatisfy_eq]
    exact isSatisfiedBy_rearranged (perm_flatMap_of_rearranged h) same
  extended groups others required h satisfied := by
    rw [allGroupsSatisfy_eq] at satisfied ⊢
    exact (ofChars_within (sublist_flatMap_of_extended h)).isSatisfiedBy satisfied

theorem allGroupsSatisfy_of_any (satisfied : anyGroupSatisfies groups required false) :
    allGroupsSatisfy groups required false := by
  obtain ⟨group, mem, satisfied⟩ := anyGroupSatisfies_iff.1 satisfied
  rw [allGroupsSatisfy_eq]
  have inside : group.toList.Sublist (groups.flatMap String.toList) :=
    List.sublist_flatten_of_mem (List.mem_map_of_mem mem)
  exact (ofChars_within inside).isSatisfiedBy satisfied

/-- Both ways of comparing a pattern with groups of sockets are coherent. What one group satisfies,
all groups satisfy together, and for these it does not matter where one group ends. -/
theorem groups_coherent :
    Coherent anyGroupSatisfies ∧ Coherent allGroupsSatisfy ∧
      (∀ groups required, anyGroupSatisfies groups required false →
        allGroupsSatisfy groups required false) ∧
      ∀ groups others required exact, String.join groups = String.join others →
        allGroupsSatisfy groups required exact = allGroupsSatisfy others required exact := by
  refine ⟨anyGroupSatisfies_coherent, allGroupsSatisfy_coherent,
    fun _ _ => allGroupsSatisfy_of_any, fun groups others required exact same => ?_⟩
  rw [allGroupsSatisfy, allGroupsSatisfy, same]

/-- The pattern is found in the second group, also if that comes first and has its sockets in
another order and one more, and in all sockets, also if they make up one group. -/
theorem groups_coherent_moved :
    anyGroupSatisfies ["b", "rgİ"] "gr" false ∧
      anyGroupSatisfies ["gİr", "b"] "rg" false ∧
      anyGroupSatisfies ["gİ" ++ "wr", "b"] "rg" false ∧
      allGroupsSatisfy ["b", "rgİ"] "gr" false ∧ allGroupsSatisfy ["brgİ"] "gr" false := by
  obtain ⟨single, -, together, joined⟩ := groups_coherent
  have found : anyGroupSatisfies ["b", "rgİ"] "gr" false := by decide +kernel
  have moved : Rearranged ["b", "rgİ"] ["gİr", "b"] :=
    ⟨["rgİ", "b"], .swap _ _ _, .cons (by decide) (.cons (.refl _) .nil)⟩
  have turned : "gr".toList.Perm "rg".toList := .swap _ _ _
  have there := (single.rearranged _ _ _ _ false moved turned).symm.trans found
  have more : Extended ["gİr", "b"] ["gİ" ++ "wr", "b"] := .socket [] ["b"] ['g', 'İ'] ['r'] 'w'
  have all := together _ _ found
  refine ⟨found, there, single.extended _ _ _ more there, all, ?_⟩
  exact (joined ["b", "rgİ"] ["brgİ"] "gr" false (by decide)).symm.trans all

end LootFilter
