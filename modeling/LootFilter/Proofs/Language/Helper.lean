import LootFilter.Proofs.Language.Operation
import Mathlib.Data.List.Forall2

/-!
# Helpers

A helper that is passed arguments of the types in its table can read them, and answers with a value
of the type in its table.
-/

namespace LootFilter

open Conduct
open Value (HasTy Fits)

variable {C : Conduct} {α β : Type}

/-- Whether an argument can be passed for a parameter. A lambda keeps to the conduct for every
element. -/
inductive Argument.Suits (C : Conduct) : Argument → Ty → Prop
  | value {v : Value} {ty : Ty} : v.Fits C.root ty → Suits C (.value v) ty
  | lambda {test : Value → EvalM Bool} {e : ElemTy} :
      (∀ v, v.HasTy C.root e.toTy → C.Admits (test v) fun _ => True) →
      Suits C (.lambda test) (.criterion e)

def Ty.IsStrict (ty : Ty) : Prop :=
  ty ≠ .real ∧ ty ≠ .list (.scalar .real) ∧ ty ≠ .list (.scalars .real)

instance (ty : Ty) : Decidable ty.IsStrict := inferInstanceAs (Decidable (_ ∧ _ ∧ _))

theorem Value.Fits.hasTy {root : Item} {v : Value} {ty : Ty} (h : v.Fits root ty)
    (strict : ty.IsStrict) : v.HasTy root ty := by
  obtain ⟨arg, accepted, typed⟩ := h
  rcases Ty.accepts_iff.1 accepted with rfl | ⟨wide, -⟩ | ⟨wide, -⟩ | ⟨wide, -⟩
  · exact typed
  · exact (strict.1 wide).elim
  · exact (strict.2.1 wide).elim
  · exact (strict.2.2 wide).elim

/-! ## Reading arguments -/

namespace ReadArgs

/-- Reading `args` leaves `rest` and gives something with the property `P`. -/
def Reads (C : Conduct) (read : ReadArgs α) (args rest : List Argument) (P : α → Prop) : Prop :=
  C.Answers (read.run args) fun out => P out.1 ∧ out.2 = rest

variable {args mid rest : List Argument} {arg : Argument} {P : α → Prop} {Q : β → Prop}

theorem Reads.pure {a : α} (h : P a) : Reads C (pure a) rest rest P := ⟨h, rfl⟩

theorem Reads.bind {read : ReadArgs α} {f : α → ReadArgs β} (h : Reads C read args mid P)
    (next : ∀ a, P a → Reads C (f a) mid rest Q) : Reads C (read >>= f) args rest Q := by
  refine Answers.bind (f := fun out => (f out.1).run out.2) h ?_
  rintro ⟨a, after⟩ ⟨holds, rfl⟩
  exact next a holds

theorem Reads.get {f : List Argument → ReadArgs α} (h : Reads C (f args) args rest P) :
    Reads C (get >>= f) args rest P := h

theorem Reads.answers {read : ReadArgs α} (h : Reads C read args rest P) :
    C.Answers (read.run' args) P :=
  Answers.bind h fun _ out => out.1

theorem reads_value (v : Value) (expected : String) :
    Reads C (value expected) (.value v :: rest) rest fun read => read = v := ⟨rfl, rfl⟩

theorem reads_of_answers {v : Value} {expected : String} {read : Value → Except Fault α}
    (h : C.Answers (read v) P) :
    Reads C (do return ← read (← value expected)) (.value v :: rest) rest P := by
  refine (reads_value v expected).bind ?_
  rintro _ rfl
  exact h.bind fun a holds => ⟨holds, rfl⟩

theorem reads_of_suits {ty : Ty} {expected : String} {read : Value → Except Fault α}
    (h : arg.Suits C ty) (value : ∀ e, ty ≠ .criterion e)
    (answers : ∀ v, v.Fits C.root ty → C.Answers (read v) P) :
    Reads C (do return ← read (← ReadArgs.value expected)) (arg :: rest) rest P := by
  cases h with
  | value fits => exact reads_of_answers (answers _ fits)
  | lambda => exact (value _ rfl).elim

theorem reads_text (h : arg.Suits C .text) : Reads C text (arg :: rest) rest fun _ => True :=
  reads_of_suits h (fun _ => nofun) fun _ fits => answers_asText (fits.hasTy (by decide))

theorem reads_bool (h : arg.Suits C .bool) : Reads C bool (arg :: rest) rest fun _ => True :=
  reads_of_suits h (fun _ => nofun) fun _ fits => answers_asBool (fits.hasTy (by decide))

theorem reads_texts (h : arg.Suits C (.list (.scalar .text))) :
    Reads C texts (arg :: rest) rest fun _ => True :=
  reads_of_suits h (fun _ => nofun) fun _ fits => answers_asTexts (fits.hasTy (by decide))

theorem reads_reals (h : arg.Suits C (.list (.scalar .real))) :
    Reads C reals (arg :: rest) rest fun _ => True :=
  reads_of_suits h (fun _ => nofun) fun _ fits => answers_asReals fits

theorem reads_textLists (h : arg.Suits C (.list (.scalars .text))) :
    Reads C textLists (arg :: rest) rest fun _ => True :=
  reads_of_suits h (fun _ => nofun) fun _ fits => answers_asTextLists (fits.hasTy (by decide))

theorem reads_boolLists (h : arg.Suits C (.list (.scalars .bool))) :
    Reads C boolLists (arg :: rest) rest fun _ => True :=
  reads_of_suits h (fun _ => nofun) fun _ fits => answers_asBoolLists (fits.hasTy (by decide))

theorem reads_mods (h : arg.Suits C .mods) : Reads C mods (arg :: rest) rest fun _ => True :=
  reads_of_suits h (fun _ => nofun) fun _ fits =>
    (answers_asMods (fits.hasTy (by decide))).weaken fun _ _ => trivial

theorem reads_criterion (h : arg.Suits C (.criterion (.record .item))) :
    Reads C criterion (arg :: rest) rest fun test =>
      ∀ it, C.root.Family it → C.Admits (test it) fun _ => True := by
  cases h with
  | value fits =>
    have typed := fits.hasTy (by decide)
    cases typed
  | lambda keeps => exact ⟨fun it family => keeps _ (.record (r := .item it) family), rfl⟩

theorem reads_pair {read : ReadArgs α} {read' : ReadArgs β}
    (h : Reads C read args mid fun _ => True) (h' : Reads C read' mid rest fun _ => True) :
    Reads C (do return (← read, ← read')) args rest fun _ => True :=
  h.bind fun _ _ => h'.bind fun _ _ => ⟨trivial, rfl⟩

theorem reads_pattern (h : arg.Suits C .text) : Reads C sockets [arg] [] fun _ => True := by
  refine .get ((reads_text h).bind fun pattern _ => ?_)
  exact Reads.pure (P := fun _ => True) trivial

theorem reads_exactPattern {exact : Argument} (h : arg.Suits C .text) (h' : exact.Suits C .bool) :
    Reads C sockets [arg, exact] [] fun _ => True := by
  refine .get ((reads_text h).bind fun pattern _ => (reads_bool h').bind fun b _ => ?_)
  exact Reads.pure (P := fun _ => True) trivial

end ReadArgs

/-! ## The table -/

namespace Item

variable {it : Item} {test : Item → EvalM Bool} {owned : List Item}

theorem admits_isUnowned (family : C.root.Family it) (others : ∀ other ∈ owned, C.root.Family other)
    (h : ∀ it, C.root.Family it → C.Admits (test it) fun _ => True) :
    C.Admits (it.isUnowned owned test) fun _ => True := by
  apply (h it family).bind
  intro b _
  cases b with
  | true =>
    have asked := admits_anyM fun other mem => h other (others other mem)
    exact asked.bind fun _ _ => .pure trivial
  | false => exact .pure trivial

theorem admits_isUnownedGem (h : ∀ it, C.root.Family it → C.Admits (test it) fun _ => True) :
    C.Admits (C.root.isUnownedGem test) fun _ => True := by
  unfold isUnownedGem
  split
  · exact admits_isUnowned .self (fun _ => .viewedGem) h
  · exact .pure trivial

end Item

namespace Helper

variable {args : List Argument} {P : α → Prop}

/-- The types of the arguments as they are passed on: further ones make up one list. -/
def passed (helper : Helper) : List Ty := helper.params ++ (helper.variadic.map Ty.list).toList

def IsAboutTagList (helper : Helper) : Prop :=
  (helper.name = "HasTag" ∨ helper.name = "HasTagCase") ∧ helper.params.length = 2

structure Permitted (C : Conduct) (helper : Helper) : Prop where
  lists : helper.IsAboutTagList → C.lists
  lengths : helper.name = "ModWeightedStatSum" → ∀ what left right,
    C.faults (.lengthMismatch what left right)

def Sound (helper : Helper) : Prop :=
  ∀ C, helper.Permitted C → ∀ args, List.Forall₂ (Argument.Suits C) args helper.passed →
    C.Admits (helper.call C.root args) fun v => v.HasTy C.root helper.returns

section arity

variable {name : String} {params : List Ty} {variadic : Option ElemTy} {returns ty ty' : Ty}
  {call : Item → List Argument → EvalM Value}

theorem Sound.of_one (passed : passed ⟨name, params, variadic, returns, call⟩ = [ty])
    (h : ∀ C, Permitted C ⟨name, params, variadic, returns, call⟩ → ∀ arg : Argument,
      arg.Suits C ty → C.Admits (call C.root [arg]) fun v => v.HasTy C.root returns) :
    Sound ⟨name, params, variadic, returns, call⟩ := by
  intro C permitted args suit
  rw [passed] at suit
  obtain _ | ⟨first, ⟨⟩⟩ := suit
  exact h C permitted _ first

theorem Sound.of_two (passed : passed ⟨name, params, variadic, returns, call⟩ = [ty, ty'])
    (h : ∀ C, Permitted C ⟨name, params, variadic, returns, call⟩ → ∀ arg arg' : Argument,
      arg.Suits C ty → arg'.Suits C ty' →
        C.Admits (call C.root [arg, arg']) fun v => v.HasTy C.root returns) :
    Sound ⟨name, params, variadic, returns, call⟩ := by
  intro C permitted args suit
  rw [passed] at suit
  obtain _ | ⟨first, _ | ⟨second, ⟨⟩⟩⟩ := suit
  exact h C permitted _ _ first second

end arity

theorem admits_reading {read : ReadArgs α} {act : Item → α → EvalM Value} {Q : Value → Prop}
    {it : Item} (h : C.Answers (read.run' args) P) (acts : ∀ a, P a → C.Admits (act it a) Q) :
    C.Admits (reading read act it args) Q := by
  unfold reading
  cases answer : read.run' args with
  | ok a =>
    rw [answer] at h
    exact acts a h
  | error fault =>
    rw [answer] at h
    exact .throw h

theorem admits_holds {read : ReadArgs α} {test : Item → α → Bool} {it : Item}
    (h : C.Answers (read.run' args) fun _ => True) :
    C.Admits (holds read test it args) fun v => v.HasTy C.root .bool :=
  admits_reading h fun a _ => .pure (.bool (test it a))

theorem admits_tags {read : ReadArgs TagQuery} {it : Item} (family : C.root.Family it)
    (h : C.Answers (read.run' args) fun query => query.IsAboutList → C.lists) :
    C.Admits (tags read it args) fun v => v.HasTy C.root .bool := by
  refine admits_reading h fun query allowed => ?_
  have asked : C.Admits (liftM (Session.askTags it query)) fun _ => True :=
    .ask (.tags family allowed) fun _ => trivial
  exact asked.map fun b _ => .bool b

theorem admits_weightedStats {it : Item} {names : List String} {weights : List Float}
    (allowed : ∀ what left right, C.faults (.lengthMismatch what left right)) :
    C.Admits (match it.weightedStats names weights with
      | .ok table => pure (Value.realStats table)
      | .error fault => throw fault) fun v => v.HasTy C.root .realStats := by
  unfold Item.weightedStats
  by_cases paired : names.length = weights.length
  · simpa only [if_pos paired] using .pure (.realStats _)
  · simpa only [if_neg paired] using .throw (allowed _ _ _)

open ReadArgs in
theorem standard_sound : ∀ helper ∈ standard, helper.Sound := by
  simp only [standard, List.forall_mem_cons]
  and_intros
  · refine .of_one rfl fun C _ wanted text => admits_tags .self ?_
    exact ((reads_text text).bind fun _ _ => .pure nofun).answers
  · refine .of_two rfl fun C permitted tags wanted texts text => admits_tags .self ?_
    have lists := permitted.lists ⟨.inl rfl, rfl⟩
    exact ((reads_texts texts).bind fun _ _ => (reads_text text).bind fun _ _ =>
      .pure fun _ => lists).answers
  · refine .of_one rfl fun C _ wanted text => admits_tags .self ?_
    exact ((reads_text text).bind fun _ _ => .pure nofun).answers
  · refine .of_two rfl fun C permitted tags wanted texts text => admits_tags .self ?_
    have lists := permitted.lists ⟨.inr rfl, rfl⟩
    exact ((reads_texts texts).bind fun _ _ => (reads_text text).bind fun _ _ =>
      .pure fun _ => lists).answers
  · exact .of_two rfl fun C _ input wanted text texts => admits_holds
      (reads_pair (reads_text text) (reads_texts texts)).answers
  · exact .of_two rfl fun C _ input wanted text texts => admits_holds
      (reads_pair (reads_text text) (reads_texts texts)).answers
  · exact .of_one rfl fun C _ wanted texts => admits_holds (reads_texts texts).answers
  · exact .of_one rfl fun C _ wanted text =>
      admits_reading (reads_text text).answers fun _ _ => .pure (.mods trivial)
  · exact .of_one rfl fun C _ wanted texts =>
      admits_reading (reads_texts texts).answers fun _ _ => .pure (.intStats _)
  · refine .of_two rfl fun C permitted names weights texts reals => ?_
    refine admits_reading (reads_pair (reads_texts texts) (reads_reals reals)).answers ?_
    rintro ⟨names, weights⟩ -
    exact admits_weightedStats (permitted.lengths rfl)
  · exact .of_one rfl fun C _ sets lists => admits_holds (reads_textLists lists).answers
  · exact .of_two rfl fun C _ mods sets ofMods lists => admits_holds
      (reads_pair (reads_mods ofMods) (reads_textLists lists)).answers
  · exact .of_one rfl fun C _ sets lists => admits_holds (reads_boolLists lists).answers
  · exact .of_one rfl fun C _ pattern text => admits_holds (reads_pattern text).answers
  · exact .of_two rfl fun C _ pattern exact text bool => admits_holds
      (reads_exactPattern text bool).answers
  · exact .of_one rfl fun C _ pattern text => admits_holds (reads_pattern text).answers
  · exact .of_two rfl fun C _ pattern exact text bool => admits_holds
      (reads_exactPattern text bool).answers
  · exact fun C _ args _ => .pure (.int _)
  · exact .of_one rfl fun C _ test criterion =>
      admits_reading (reads_criterion criterion).answers fun test keeps =>
        (Item.admits_isUnowned .self (fun _ => .viewed) keeps).map fun b _ => .bool b
  · exact .of_one rfl fun C _ test criterion =>
      admits_reading (reads_criterion criterion).answers fun test keeps =>
        (Item.admits_isUnownedGem keeps).map fun b _ => .bool b
  · exact List.forall_mem_nil _

end Helper

end LootFilter
