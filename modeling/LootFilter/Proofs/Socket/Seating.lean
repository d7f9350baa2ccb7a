import LootFilter.Proofs.Text.Lower
import LootFilter.Socket.Pattern
import Mathlib.Algebra.BigOperators.Group.Finset.Basic
import Mathlib.Combinatorics.Hall.Basic
import Mathlib.Data.Fintype.Fin

/-!
# Counting sockets and seating them

A candidate satisfies a pattern, by counting, just if every socket of the pattern can be given a
socket of the candidate that will do for it and for no other one.
-/

namespace LootFilter

/-! ## Shortfall -/

theorem nodup_eraseDups {α : Type} [BEq α] [LawfulBEq α] (as : List α) : as.eraseDups.Nodup := by
  match as with
  | [] => exact .nil
  | a :: as =>
    rw [List.eraseDups_cons]
    exact List.nodup_cons.2 ⟨by simp, nodup_eraseDups _⟩
termination_by as.length
decreasing_by
  have shorter := List.length_filter_le (fun b => !b == a) as
  simp only [List.length_cons]
  omega

theorem card_positions {α : Type} (as : List α) (p : α → Bool) :
    (Finset.univ.filter fun i : Fin as.length => p as[i]).card = as.countP p := by
  induction as with
  | nil => rfl
  | cons a as ih =>
    rw [List.countP_cons, ← ih]
    refine (Fin.card_filter_univ_succ (n := as.length) (fun i => p (a :: as)[i] = true)).trans ?_
    change (if p a = true then _ + 1 else _) = _
    split <;> rfl

namespace SocketPattern

theorem shortfall_eq_card (p candidate : SocketPattern) :
    p.shortfall candidate = ((p.letters : Multiset Char) - candidate.letters).card := by
  rw [shortfall, ← List.foldl_map, ← List.sum_eq_foldl, ← List.sum_toFinset _ (nodup_eraseDups _),
    ← Multiset.sum_count_eq_card (s := p.letters.eraseDups.toFinset)]
  · simp only [Multiset.count_sub, Multiset.coe_count]
  · intro c mem
    simpa using Multiset.mem_of_le (Multiset.sub_le_self _ _) mem

theorem isSatisfiedBy_iff {p candidate : SocketPattern} {exact : Bool} :
    p.isSatisfiedBy candidate exact ↔
      (if exact then candidate.size = p.size else p.size ≤ candidate.size) ∧
        p.shortfall candidate + p.whites ≤ candidate.whites := by
  unfold isSatisfiedBy
  cases exact <;> simp

theorem countP_le_shortfall (p candidate : SocketPattern) (K : Char → Bool) :
    p.letters.countP K ≤ candidate.letters.countP K + p.shortfall candidate := by
  let s : Multiset Char := p.letters
  let t : Multiset Char := candidate.letters
  have counted : s.countP (K ·) ≤ t.countP (K ·) + (s - t).card := by
    calc s.countP (K ·)
        ≤ (t + (s - t)).countP (K ·) := Multiset.countP_le_of_le _ le_add_tsub
      _ = t.countP (K ·) + (s - t).countP (K ·) := Multiset.countP_add _ t (s - t)
      _ ≤ t.countP (K ·) + (s - t).card := Nat.add_le_add_left (Multiset.countP_le_card _ _) _
  simpa [s, t, shortfall_eq_card] using counted

def isScarce (p candidate : SocketPattern) (c : Char) : Bool :=
  candidate.letters.count c < p.letters.count c

theorem countP_isScarce (p candidate : SocketPattern) :
    p.letters.countP (p.isScarce candidate) =
      candidate.letters.countP (p.isScarce candidate) + p.shortfall candidate := by
  let s : Multiset Char := p.letters
  let t : Multiset Char := candidate.letters
  have split : s.filter (p.isScarce candidate ·) = t.filter (p.isScarce candidate ·) + (s - t) := by
    ext c
    have scarce : p.isScarce candidate c ↔ t.count c < s.count c := by simp [isScarce, s, t]
    rw [Multiset.count_add, Multiset.count_filter, Multiset.count_filter, Multiset.count_sub]
    simp only [scarce]
    split <;> omega
  have counted := congrArg Multiset.card split
  rw [Multiset.card_add, ← Multiset.countP_eq_card_filter, ← Multiset.countP_eq_card_filter]
    at counted
  simpa [s, t, shortfall_eq_card] using counted

/-! ## Seating -/

/-- Whether the socket `given` will do where the socket `wanted` is asked for. -/
def WillDo (wanted given : Char) : Prop :=
  if isWildcard wanted then True
  else if isWhite wanted then isWhite given = true
  else Text.lowerChar wanted = Text.lowerChar given ∨ isWhite given

/-- Whether all required sockets can be given sockets that will do, each one of its own. -/
def Seating (required candidate : List Char) : Prop :=
  ∃ seat : Fin required.length → Fin candidate.length, seat.Injective ∧
    ∀ i, WillDo required[i] candidate[seat i]

instance (wanted given : Char) : Decidable (WillDo wanted given) := by
  unfold WillDo
  infer_instance

/-- The sockets that will do for one of the required sockets that are chosen. -/
def suitable {required : List Char} (chosen : Finset (Fin required.length))
    (candidate : List Char) : Finset (Fin candidate.length) :=
  {j | ∃ i ∈ chosen, WillDo required[i] candidate[j]}

theorem seating_iff {required candidate : List Char} : Seating required candidate ↔
    ∀ chosen : Finset (Fin required.length), chosen.card ≤ (suitable chosen candidate).card := by
  have hall := Fintype.all_card_le_filter_rel_iff_exists_injective
    fun (i : Fin required.length) (j : Fin candidate.length) => WillDo required[i] candidate[j]
  unfold suitable
  convert hall.symm
  rfl

def colour (c : Char) : Char := (Text.lowerChar c).headD c

/-- Whether the socket is white, or of one of the colours. -/
def isAmong (K : Char → Bool) (c : Char) : Bool := isWhite c || (isColoured c && K (colour c))

variable {c wanted given : Char} {cs required candidate : List Char}

theorem lowerChar_eq_colour (single : (Text.lowerChar c).length = 1) :
    Text.lowerChar c = [colour c] := by
  obtain ⟨d, lower⟩ := List.length_eq_one_iff.1 single
  rw [colour, lower, List.headD_cons]

theorem colour_congr (same : Text.lowerChar wanted = Text.lowerChar given) :
    colour wanted = colour given := by
  obtain ⟨d, ds, lower⟩ := List.exists_cons_of_ne_nil (Text.lowerChar_ne_nil given)
  rw [colour, colour, same, lower, List.headD_cons, List.headD_cons]

theorem letters_ofChars (single : ∀ c ∈ cs, (Text.lowerChar c).length = 1) :
    (ofChars cs).letters = (cs.filter isColoured).map colour := by
  rw [List.map_eq_flatMap]
  exact List.flatMap_congr fun c mem => lowerChar_eq_colour (single c (List.mem_of_mem_filter mem))

theorem countP_isAmong (single : ∀ c ∈ cs, (Text.lowerChar c).length = 1) (K : Char → Bool) :
    cs.countP (isAmong K) = (ofChars cs).whites + (ofChars cs).letters.countP K := by
  rw [letters_ofChars single, List.countP_map, List.countP_filter]
  clear single
  change _ = cs.countP isWhite + _
  induction cs with
  | nil => rfl
  | cons c cs ih =>
    simp only [List.countP_cons, isAmong, isColoured, Function.comp_apply] at ih ⊢
    rw [ih]
    by_cases white : isWhite c
    · simp [white]
      omega
    · simp [white, Bool.and_comm]
      omega

theorem isAmong_iff {K : Char → Bool} :
    isAmong K c ↔ isWhite c ∨ isColoured c ∧ K (colour c) := by
  simp [isAmong]

theorem not_isWildcard_of_isWhite (white : isWhite c) : ¬isWildcard c := by
  intro wild
  rw [isWildcard, beq_iff_eq] at wild
  rw [wild] at white
  cases white

theorem isColoured_iff : isColoured c ↔ ¬isWhite c ∧ ¬isWildcard c := by simp [isColoured]

theorem willDo_white (white : isWhite wanted) : WillDo wanted given ↔ isWhite given := by
  rw [WillDo, if_neg (not_isWildcard_of_isWhite white), if_pos white]

theorem willDo_coloured (coloured : isColoured wanted) :
    WillDo wanted given ↔ Text.lowerChar wanted = Text.lowerChar given ∨ isWhite given := by
  obtain ⟨dyed, tame⟩ := isColoured_iff.1 coloured
  rw [WillDo, if_neg tame, if_neg dyed]

theorem isColoured_of_lowerChar_eq (coloured : isColoured wanted)
    (same : Text.lowerChar wanted = Text.lowerChar given) (dyed : ¬isWhite given) :
    isColoured given := by
  refine isColoured_iff.2 ⟨dyed, fun wild => (isColoured_iff.1 coloured).2 ?_⟩
  rw [isWildcard, beq_iff_eq] at wild ⊢
  rw [wild] at same
  exact Text.eq_of_lowerChar_eq_question same

theorem WillDo.isAmong {K : Char → Bool} (h : WillDo wanted given) (among : isAmong K wanted) :
    SocketPattern.isAmong K given := by
  refine isAmong_iff.2 ?_
  by_cases white : isWhite given
  · exact .inl white
  · rcases isAmong_iff.1 among with demanded | ⟨coloured, known⟩
    · exact .inl ((willDo_white demanded).1 h)
    · have same := ((willDo_coloured coloured).1 h).resolve_right white
      rw [colour_congr same] at known
      exact .inr ⟨isColoured_of_lowerChar_eq coloured same white, known⟩

theorem Seating.countP_le (seating : Seating required candidate) (K : Char → Bool) :
    required.countP (isAmong K) ≤ candidate.countP (isAmong K) := by
  obtain ⟨seat, injective, willDo⟩ := seating
  rw [← card_positions, ← card_positions]
  refine Finset.card_le_card_of_injOn seat (fun i mem => ?_) injective.injOn
  have among := (Finset.mem_filter.1 mem).2
  refine Finset.mem_filter.2 ⟨Finset.mem_univ _, ?_⟩
  exact (willDo i).isAmong among

theorem Seating.shortfall_le (seating : Seating required candidate)
    (single : ∀ c ∈ required ++ candidate, (Text.lowerChar c).length = 1) :
    (ofChars required).shortfall (ofChars candidate) + (ofChars required).whites ≤
      (ofChars candidate).whites := by
  obtain ⟨wanted, given⟩ := List.forall_mem_append.1 single
  have seated := seating.countP_le ((ofChars required).isScarce (ofChars candidate))
  have missing := countP_isScarce (ofChars required) (ofChars candidate)
  rw [countP_isAmong wanted, countP_isAmong given] at seated
  omega

theorem Seating.size_le (seating : Seating required candidate) :
    required.length ≤ candidate.length := by
  obtain ⟨seat, injective, -⟩ := seating
  simpa using Fintype.card_le_of_injective seat injective

section chosen

variable {chosen : Finset (Fin required.length)}

def coloursOf (chosen : Finset (Fin required.length)) (k : Char) : Bool :=
  decide (∃ i ∈ chosen, isColoured required[i] ∧ colour required[i] = k)

theorem isAmong_chosen (tame : ∀ i ∈ chosen, ¬isWildcard required[i]) {i : Fin required.length}
    (mem : i ∈ chosen) : isAmong (coloursOf chosen) required[i] := by
  refine isAmong_iff.2 ?_
  by_cases white : isWhite required[i]
  · exact .inl white
  · have coloured := isColoured_iff.2 ⟨white, tame i mem⟩
    exact .inr ⟨coloured, decide_eq_true ⟨i, mem, coloured, rfl⟩⟩

theorem mem_suitable_of_isAmong (tame : ∀ i ∈ chosen, ¬isWildcard required[i])
    (nonempty : chosen.Nonempty) (single : ∀ c ∈ required ++ candidate,
      (Text.lowerChar c).length = 1) {j : Fin candidate.length}
    (among : isAmong (coloursOf chosen) candidate[j]) : j ∈ suitable chosen candidate := by
  refine Finset.mem_filter.2 ⟨Finset.mem_univ j, ?_⟩
  rcases isAmong_iff.1 among with white | ⟨-, known⟩
  · -- A white socket will do for whatever is among the chosen ones.
    obtain ⟨i, mem⟩ := nonempty
    refine ⟨i, mem, ?_⟩
    rcases isAmong_iff.1 (isAmong_chosen tame mem) with demanded | ⟨coloured, -⟩
    · exact (willDo_white demanded).2 white
    · exact (willDo_coloured coloured).2 (.inr white)
  · obtain ⟨i, mem, coloured, same⟩ := of_decide_eq_true known
    obtain ⟨wanted, given⟩ := List.forall_mem_append.1 single
    have lower := lowerChar_eq_colour (wanted required[i] (List.getElem_mem i.isLt))
    have lower' := lowerChar_eq_colour (given candidate[j] (List.getElem_mem j.isLt))
    exact ⟨i, mem, (willDo_coloured coloured).2 (.inl (by rw [lower, lower', same]))⟩

end chosen

/-- If there are enough sockets by counting, any choice of required sockets has enough sockets that
will do for one of them. -/
theorem seating_of_shortfall_le (long : required.length ≤ candidate.length)
    (covered : (ofChars required).shortfall (ofChars candidate) + (ofChars required).whites ≤
      (ofChars candidate).whites)
    (single : ∀ c ∈ required ++ candidate, (Text.lowerChar c).length = 1) :
    Seating required candidate := by
  refine seating_iff.2 fun chosen => ?_
  by_cases wild : ∃ i ∈ chosen, isWildcard required[i]
  · obtain ⟨i, mem, wild⟩ := wild
    have all : suitable chosen candidate = Finset.univ :=
      Finset.filter_true_of_mem fun j _ => ⟨i, mem, by simp only [WillDo, wild, if_true]⟩
    calc chosen.card
        ≤ required.length := by simpa using Finset.card_le_univ chosen
      _ ≤ candidate.length := long
      _ = (suitable chosen candidate).card := by rw [all, Finset.card_fin]
  · have tame : ∀ i ∈ chosen, ¬isWildcard required[i] := fun i mem wild' => wild ⟨i, mem, wild'⟩
    rcases chosen.eq_empty_or_nonempty with rfl | nonempty
    · exact Nat.zero_le _
    · have demanded : chosen.card ≤ required.countP (isAmong (coloursOf chosen)) := by
        rw [← card_positions]
        exact Finset.card_le_card fun i mem =>
          Finset.mem_filter.2 ⟨Finset.mem_univ i, isAmong_chosen tame mem⟩
      have offered : candidate.countP (isAmong (coloursOf chosen)) ≤
          (suitable chosen candidate).card := by
        rw [← card_positions]
        exact Finset.card_le_card fun j mem =>
          mem_suitable_of_isAmong tame nonempty single (Finset.mem_filter.1 mem).2
      have counted := countP_le_shortfall (ofChars required) (ofChars candidate) (coloursOf chosen)
      obtain ⟨wanted, given⟩ := List.forall_mem_append.1 single
      rw [countP_isAmong wanted] at demanded
      rw [countP_isAmong given] at offered
      omega

/-- A candidate satisfies a pattern just if all sockets of the pattern can be seated on it, and
exactly so if there are as many sockets in both. Only one letter is lowered to several
characters. -/
theorem isSatisfiedBy_iff_seating (required candidate : String)
    (single : ∀ c ∈ required.toList ++ candidate.toList, (Text.lowerChar c).length = 1) :
    ((ofText required).isSatisfiedBy (ofText candidate) false ↔
        Seating required.toList candidate.toList) ∧
      ((ofText required).isSatisfiedBy (ofText candidate) true ↔
        Seating required.toList candidate.toList ∧ required.length = candidate.length) ∧
      ∀ c, (Text.lowerChar c).length = 1 ↔ c ≠ 'İ' := by
  have counted : Seating required.toList candidate.toList ↔
      required.toList.length ≤ candidate.toList.length ∧
        (ofText required).shortfall (ofText candidate) + (ofText required).whites ≤
          (ofText candidate).whites :=
    ⟨fun seating => ⟨seating.size_le, seating.shortfall_le single⟩,
      fun ⟨long, covered⟩ => seating_of_shortfall_le long covered single⟩
  rw [isSatisfiedBy_iff, isSatisfiedBy_iff, counted, ← String.length_toList, ← String.length_toList]
  refine ⟨Iff.rfl, ?_, fun _ => Text.length_lowerChar_eq_one_iff⟩
  constructor
  · rintro ⟨same, covered⟩
    exact ⟨⟨Nat.le_of_eq (Eq.symm same), covered⟩, Eq.symm same⟩
  · rintro ⟨⟨-, covered⟩, same⟩
    exact ⟨Eq.symm same, covered⟩

/-- One of two white sockets stands in for the green one, the other one is asked for. -/
theorem isSatisfiedBy_iff_seating_white :
    (∀ c ∈ "Rgw?".toList ++ "WrbW".toList, (Text.lowerChar c).length = 1) ∧
      Seating "Rgw?".toList "WrbW".toList ∧ ¬Seating "Rgw?".toList "WrbB".toList := by
  have single : ∀ c ∈ "Rgw?".toList ++ "WrbW".toList, (Text.lowerChar c).length = 1 := by
    simp [Text.length_lowerChar_eq_one_iff]
  have single' : ∀ c ∈ "Rgw?".toList ++ "WrbB".toList, (Text.lowerChar c).length = 1 := by
    simp [Text.length_lowerChar_eq_one_iff]
  refine ⟨single, ?_, ?_⟩
  · exact (isSatisfiedBy_iff_seating _ _ single).1.1 (by decide +kernel)
  · rw [← (isSatisfiedBy_iff_seating _ _ single').1]
    decide +kernel

end SocketPattern

end LootFilter
