import LootFilter.Proofs.Language.Grammar
import Mathlib.Data.List.Basic

/-!
# How deep an accepted expression is

The nodes on the way from the root of an expression to one of its leaves. The parser counts levels of
nesting, but what it has read by the time that it meets an operator, a member, an index or a question
mark becomes the operand or target of a further node, and uses up no further level. So the levels
limit the nodes that are reached in any other way, and the depth of the whole expression only through
the number of nodes that may be put on top of each other at every level.
-/

namespace LootFilter

namespace Expr

/-- How the way to a leaf passes a node. -/
inductive Step where
  /-- A logical operator, which never uses up a level. -/
  | logical
  /-- To a part that the node has used up a level for. -/
  | charged
  /-- To a part that was read before the node was met, or through the lambda of a helper. -/
  | free
deriving DecidableEq

def Step.levels : Step → Nat
  | charged => 1
  | logical | free => 0

def Step.nodes : Step → Nat
  | logical => 0
  | charged | free => 1

abbrev Way := List Step

def Way.total (weight : Step → Nat) : Way → Nat
  | [] => 0
  | s :: way => weight s + total weight way

def Way.levels (way : Way) : Nat := way.total Step.levels

/-- How many nodes are on the way, logical operators apart. -/
def Way.nodes (way : Way) : Nat := way.total Step.nodes

/-- The ways from a node to its leaves, from those of its parts. A node without parts is a leaf. -/
def through : List Way → List Way
  | [] => [[.charged]]
  | ways => ways.map (.charged :: ·)

mutual

def ways : Expr → List Way
  | bool .. | int .. | real .. | text .. | name .. => through []
  | member target _ => (ways target).map (.free :: ·)
  | call _ _ args => through (argWays args .free)
  | method target _ args =>
    (ways target).map (.free :: ·) ++ (argWays args .charged).map (.charged :: ·)
  | .index target i => (ways target).map (.free :: ·) ++ (ways i).map (.charged :: ·)
  | unary _ _ operand => (ways operand).map (.charged :: ·)
  | binary _ left right => (ways left).map (.free :: ·) ++ (ways right).map (.charged :: ·)
  | logical _ first rest => (ways first ++ itemWays rest).map (.logical :: ·)
  | choice condition yes no =>
    (ways condition).map (.free :: ·) ++ (ways yes ++ ways no).map (.charged :: ·)
  | array _ items => through (itemWays items)

/-- The ways through arguments, in which the node of a lambda is passed as given. -/
def argWays : List (Arg Expr) → (lambda : Step) → List Way
  | [], _ => []
  | .plain e :: args, lambda => ways e ++ argWays args lambda
  | .lambda _ _ body :: args, lambda => (ways body).map (lambda :: ·) ++ argWays args lambda

def itemWays : List Expr → List Way
  | [] => []
  | e :: es => ways e ++ itemWays es

end

/-! ## Limits of ways -/

def Within (levels nodes : Nat) (ways : List Way) : Prop :=
  ∀ way ∈ ways, way.levels ≤ levels ∧ way.nodes ≤ nodes

namespace Within

variable {l l' n n' : Nat} {ws ws' : List Way}

theorem nil : Within l n [] := nofun

theorem mono (h : Within l n ws) (fewer : l ≤ l') (smaller : n ≤ n') : Within l' n' ws :=
  fun way mem => ⟨Nat.le_trans (h way mem).1 fewer, Nat.le_trans (h way mem).2 smaller⟩

theorem append (h : Within l n ws) (h' : Within l n ws') : Within l n (ws ++ ws') :=
  fun way mem => (List.mem_append.1 mem).elim (h way) (h' way)

theorem step (s : Step) (h : Within l n ws) :
    Within (l + s.levels) (n + s.nodes) (ws.map (s :: ·)) := by
  intro _ reached
  obtain ⟨way, mem, rfl⟩ := List.mem_map.1 reached
  obtain ⟨levels, nodes⟩ := h way mem
  simp only [Way.levels, Way.nodes, Way.total] at *
  omega

theorem fork {m : Nat} (first : Within l n ws) (others : Within l' n' ws') (deeper : l' < l)
    (firstFits : n < m) (othersFit : n' < m) :
    Within l m (ws.map (.free :: ·) ++ ws'.map (.charged :: ·)) :=
  ((first.step .free).mono (Nat.le_refl _) firstFits).append
    ((others.step .charged).mono deeper othersFit)

theorem through (h : Within l n ws) : Within (l + 1) (n + 1) (through ws) := by
  cases ws with
  | nil =>
    rintro _ (_ | ⟨_, ⟨⟩⟩)
    exact ⟨Nat.le_add_left 1 l, Nat.le_add_left 1 n⟩
  | cons way ways => exact h.step .charged

theorem items {items : List Expr} (h : ∀ item ∈ items, Within l n item.ways) :
    Within l n (itemWays items) := by
  induction items with
  | nil => exact nil
  | cons e es ih =>
    obtain ⟨first, rest⟩ := List.forall_mem_cons.1 h
    exact first.append (ih rest)

theorem args (lambda : Step) {args : List (Arg Expr)}
    (h : ∀ arg ∈ args, Within l n arg.body.ways) :
    Within (l + lambda.levels) (n + lambda.nodes) (argWays args lambda) := by
  induction args with
  | nil => exact nil
  | cons arg args ih =>
    obtain ⟨first, rest⟩ := List.forall_mem_cons.1 h
    cases arg with
    | plain e => exact (first.mono (Nat.le_add_right ..) (Nat.le_add_right ..)).append (ih rest)
    | lambda pos param body => exact (first.step lambda).append (ih rest)

end Within

end Expr

/-! ## How much a level holds -/

def Chain.kinds : Chain → Nat
  | equality => 4
  | order => 3
  | sum => 2
  | product => 1

namespace Tier

/-- The most nodes on a way through an expression that stands by itself, with the given levels. Each
level may hold the links of all four kinds of chains and a member for every level that is left, a
question mark, a helper and its lambda. -/
def mostWhole : Nat → Nat
  | 0 => 0
  | 1 => 1
  | left + 2 => mostWhole (left + 1) + 5 * (left + 1) + 3

def mostPrimary : Nat → Nat
  | 0 => 1
  | left + 1 => mostWhole (left + 1) + 2

def mostLevels : Tier → Nat → Nat
  | whole, levels => levels
  | _, levels => levels + 1

def mostNodes : Tier → (levels left : Nat) → Nat
  | whole, levels, _ => mostWhole levels
  | choice, levels, _ => mostWhole (levels + 1)
  | logical _, levels, _ => mostPrimary levels + 5 * levels
  | chain c, levels, left => mostPrimary levels + c.kinds * levels + (levels - left)
  | prefixed, levels, _ => mostPrimary levels + levels
  | postfixed, levels, left => mostPrimary levels + (levels - left)
  | primary, levels, _ => mostPrimary levels

theorem mostWhole_le_succ (levels : Nat) :
    mostWhole levels ≤ mostWhole (levels + 1) := by
  cases levels with
  | zero => exact Nat.zero_le _
  | succ left =>
    simp only [mostWhole, Nat.add_assoc]
    exact Nat.le_add_right ..

theorem mostWhole_mono {left levels : Nat} (h : left ≤ levels) :
    mostWhole left ≤ mostWhole levels := by
  induction h with
  | refl => exact Nat.le_refl _
  | step _ ih => exact Nat.le_trans ih (mostWhole_le_succ _)

theorem mostWhole_lt_mostPrimary (levels : Nat) :
    mostWhole levels < mostPrimary levels := by
  cases levels with
  | zero => exact Nat.one_pos
  | succ left => exact Nat.lt_add_of_pos_right Nat.two_pos

theorem mostPrimary_of_pos {levels : Nat} (h : 0 < levels) :
    mostPrimary levels = mostWhole levels + 2 := by
  obtain ⟨left, rfl⟩ := Nat.exists_eq_add_of_le' h
  rfl

theorem mostPrimary_mono {left levels : Nat} (h : left ≤ levels) :
    mostPrimary left ≤ mostPrimary levels := by
  cases left with
  | zero => exact Nat.succ_le_of_lt (Nat.zero_lt_of_lt (mostWhole_lt_mostPrimary levels))
  | succ left =>
    obtain ⟨levels, rfl⟩ := Nat.exists_eq_add_of_le' (Nat.zero_lt_of_lt h)
    exact Nat.add_le_add_right (mostWhole_mono h) 2

theorem mostWhole_succ {levels : Nat} (h : 0 < levels) :
    mostWhole (levels + 1) = mostPrimary levels + 5 * levels + 1 := by
  obtain ⟨left, rfl⟩ := Nat.exists_eq_add_of_le' h
  simp only [mostWhole, mostPrimary]
  omega

theorem mostLevels_tighter {t : Tier} (h : t ≠ .whole) (levels : Nat) :
    t.tighter.mostLevels levels ≤ t.mostLevels levels := by
  cases t with
  | whole => exact absurd rfl h
  | logical op => cases op <;> exact Nat.le_refl _
  | chain c => cases c <;> exact Nat.le_refl _
  | choice | prefixed | postfixed | primary => exact Nat.le_refl _

theorem mostNodes_tighter {t : Tier} (h : t ≠ .whole) (levels : Nat) :
    t.tighter.mostNodes levels 0 ≤ t.mostNodes levels levels := by
  cases t with
  | whole => exact absurd rfl h
  | choice =>
    rcases Nat.eq_zero_or_pos levels with rfl | pos
    · exact Nat.le_refl _
    · simp only [tighter, mostNodes, mostWhole_succ pos]
      omega
  | logical op => cases op <;> simp only [tighter, mostNodes, Chain.kinds] <;> omega
  | chain c => cases c <;> simp only [tighter, mostNodes, Chain.kinds] <;> omega
  | prefixed | postfixed | primary => simp only [tighter, mostNodes]; omega

theorem mostNodes_left (t : Tier) (levels left : Nat) :
    t.mostNodes levels left ≤ t.mostNodes levels 0 := by
  cases t <;> simp only [mostNodes] <;> omega

theorem mostNodes_link (c : Chain) {levels left : Nat} (h : left < levels) :
    (chain c).tighter.mostNodes left 0 + 1 ≤ (chain c).mostNodes levels left := by
  have primary := mostPrimary_mono (Nat.le_of_lt h)
  cases c <;> simp only [tighter, mostNodes, Chain.kinds] <;> omega

end Tier

namespace Expr.Derives

open Tier (mostPrimary mostPrimary_mono mostWhole_lt_mostPrimary mostPrimary_of_pos)

variable {tokens : List Token} {t : Tier} {levels : Nat} {under : Option Nat} {e : Expr}

theorem under_le (h : Derives tokens t levels under e) : ∀ left ∈ under, left ≤ levels := by
  induction h with
  | member _ ih | method _ _ _ ih | index _ _ ih | link _ _ _ ih =>
    rintro _ ⟨⟩
    exact Nat.le_of_succ_le (ih _ rfl)
  | begins =>
    rintro _ ⟨⟩
    exact Nat.le_refl _
  | _ => exact nofun

theorem levels_pos (h : Derives tokens .whole levels under e) : 0 < levels := by
  cases h with
  | whole => exact Nat.succ_pos _
  | begins ne => exact absurd rfl ne
  | ends h =>
    cases h with
    | begins ne => exact absurd rfl ne

theorem within (h : Derives tokens t levels under e) :
    Within (t.mostLevels levels) (t.mostNodes levels (under.getD 0)) e.ways := by
  have leaf (levels : Nat) : Within (levels + 1) (mostPrimary levels) (through []) :=
    Within.nil.through.mono (Nat.le_refl _)
      (Nat.succ_le_of_lt (Nat.zero_lt_of_lt (mostWhole_lt_mostPrimary levels)))
  induction h with
  | bool | int | real | text | name => exact leaf _
  | @call pos levels name args _ _ bodies ih =>
    cases args with
    | nil => exact leaf levels
    | cons arg args =>
      have pos := (bodies arg List.mem_cons_self).levels_pos
      exact (Within.args .free ih).through.mono (Nat.le_refl _)
        (Nat.le_of_eq (mostPrimary_of_pos pos).symm)
  | array _ _ ih =>
    exact (Within.items ih).through.mono (Nat.le_refl _) (mostWhole_lt_mostPrimary _)
  | bracket _ ih => exact ih.mono (Nat.le_succ _) (Nat.le_of_lt (mostWhole_lt_mostPrimary _))
  | member target ih =>
    have left := target.under_le _ rfl
    refine (ih.step .free).mono (Nat.le_refl _) ?_
    simp only [Tier.mostNodes, Option.getD_some, Step.nodes]
    omega
  | @method levels left target name args target' _ bodies ih ihArgs =>
    have fewer := target'.under_le _ rfl
    have room := mostPrimary_mono (Nat.le_of_succ_le fewer)
    have body := mostWhole_lt_mostPrimary left
    refine ih.fork (Within.args .charged ihArgs) ?_ ?_ ?_ <;>
      simp only [Tier.mostLevels, Tier.mostNodes, Option.getD_some,
        Step.levels, Step.nodes] <;> omega
  | @index levels left target i target' _ ih ihIndex =>
    have fewer := target'.under_le _ rfl
    have room := mostPrimary_mono (Nat.le_of_succ_le fewer)
    have inner := mostWhole_lt_mostPrimary left
    refine ih.fork ihIndex ?_ ?_ ?_ <;>
      simp only [Tier.mostLevels, Tier.mostNodes, Option.getD_some] <;> omega
  | @prefixed token op left operand _ _ _ ih =>
    have room := mostPrimary_mono (Nat.le_add_right left 1)
    have charged := ih.step .charged
    unfold ExprParser.applyUnary
    split
    · exact (leaf _).mono (Nat.le_refl _) (Nat.le_add_right ..)
    · exact (leaf _).mono (Nat.le_refl _) (Nat.le_add_right ..)
    · refine charged.mono (Nat.le_refl _) ?_
      simp only [Tier.mostNodes, Step.nodes]
      omega
  | @link c s op levels left l r _ l' _ ih ihRight =>
    have fewer := l'.under_le _ rfl
    have room := Tier.mostNodes_link c fewer
    refine ih.fork ihRight ?_ ?_ room
    · cases c <;> exact Nat.succ_lt_succ fewer
    · simp only [Tier.mostNodes, Option.getD_some]
      omega
  | @logical op levels first rest _ _ ih =>
    obtain ⟨first, rest⟩ := List.forall_mem_cons.1 ih
    exact ((first.append (Within.items rest)).step .logical).mono
      (Tier.mostLevels_tighter (t := .logical op) nofun levels)
      (Tier.mostNodes_tighter (t := .logical op) nofun levels)
  | @choice levels condition yes no _ yes' _ ih ihYes ihNo =>
    have pos := yes'.levels_pos
    have total := Tier.mostWhole_succ pos
    have room := mostWhole_lt_mostPrimary levels
    refine ih.fork (ihYes.append ihNo) ?_ ?_ ?_ <;>
      simp only [Tier.mostLevels, Tier.mostNodes] <;> omega
  | whole _ ih => exact ih
  | @begins t levels e ne _ ih =>
    exact ih.mono (Tier.mostLevels_tighter ne levels) (Tier.mostNodes_tighter ne levels)
  | ends _ ih => exact ih.mono (Nat.le_refl _) (Tier.mostNodes_left ..)

end Expr.Derives

namespace Expr

open ExprParser (maxLevels)

theorem Way.nodes_eq_levels {way : Way} (counted : .free ∉ way) : way.nodes = way.levels := by
  induction way with
  | nil => rfl
  | cons s way ih =>
    have rest := ih fun mem => counted (List.mem_cons_of_mem s mem)
    cases s with
    | free => exact absurd List.mem_cons_self counted
    | logical | charged => exact congrArg (_ + ·) rest

/-- Of the nodes on a way through an accepted expression, at most 64 use up a level. So it takes nodes
that use up none for a way to pass more than 64 nodes, and no way passes more than 10270. -/
theorem nesting_of_ofText {text : String} {e : Expr} (h : ofText text = .ok e) :
    (∀ way ∈ e.ways, way.levels ≤ maxLevels) ∧
      ((∀ way ∈ e.ways, way.nodes ≤ maxLevels) ↔
        ∀ way ∈ e.ways, .free ∈ way → way.nodes ≤ maxLevels) ∧
      ∀ way ∈ e.ways, way.nodes ≤ 10270 := by
  obtain ⟨tokens, -, derives⟩ := derives_of_ofText h
  have within := derives.within
  refine ⟨fun way mem => (within way mem).1, ⟨fun all way mem _ => all way mem, ?_⟩, ?_⟩
  · intro free way mem
    by_cases skips : .free ∈ way
    · exact free way mem skips
    · exact Way.nodes_eq_levels skips ▸ (within way mem).1
  · intro way mem
    have most : Tier.mostWhole maxLevels = 10270 := by decide
    exact most ▸ (within way mem).2

/-- As many operators as there are levels below the outermost one, and a comparison, whose left operand
they are. -/
def fullText : String := "!!!!!!!!!!!!!!!!!!!!!!!!!!!!!!!!!!!!!!!!!!!!!!!!!!!!!!!!!!!!!!!a == b"

theorem ofText_fullText :
    ∃ e, ofText fullText = .ok e ∧ ∃ way ∈ e.ways, maxLevels < way.nodes := by
  obtain ⟨e, accepted⟩ : ∃ e, ofText fullText = .ok e := Typing.ok_of_isOk (by decide +kernel)
  have deep : (ofText fullText).toOption.any
      fun e => e.ways.any fun way => maxLevels < way.nodes := by decide +kernel
  rw [accepted] at deep
  obtain ⟨way, mem, deep⟩ := List.any_eq_true.1 deep
  exact ⟨e, accepted, way, mem, of_decide_eq_true deep⟩

theorem nesting_of_fullText : ∃ e, ofText fullText = .ok e ∧
    (∀ way ∈ e.ways, way.levels ≤ maxLevels) ∧
      (∃ way ∈ e.ways, .free ∈ way ∧ maxLevels < way.nodes) ∧ ∀ way ∈ e.ways, way.nodes ≤ 10270 := by
  obtain ⟨e, accepted, way, mem, deep⟩ := ofText_fullText
  obtain ⟨levels, exceptions, nodes⟩ := nesting_of_ofText accepted
  refine ⟨e, accepted, levels, Classical.byContradiction fun none => ?_, nodes⟩
  have all := exceptions.2 fun way mem free => Nat.not_lt.1 fun deep => none ⟨way, mem, free, deep⟩
  exact absurd (all way mem) (Nat.not_le.2 deep)

/-- What stands in front of an operator may have used up all levels already. -/
theorem nesting_exceeds_levels :
    ¬ ∀ text e, ofText text = .ok e → ∀ way ∈ e.ways, way.nodes ≤ maxLevels := by
  intro all
  obtain ⟨e, accepted, way, mem, deep⟩ := ofText_fullText
  exact absurd (all _ e accepted way mem) (Nat.not_le.2 deep)

end Expr

end LootFilter
