import LootFilter.Proofs.Session.Conduct

/-!
# Values of a type

A value of a type has the type's shape, and all records in it are about the family of one item.
Reading a value as what its type says it is never fails.
-/

namespace LootFilter

/-- What a parameter accepts beside its own type are whole numbers for doubles. -/
theorem Ty.accepts_iff {param arg : Ty} : param.accepts arg ↔
    arg = param ∨ (param = real ∧ arg = int) ∨
      (param = list (.scalar .real) ∧ arg = list (.scalar .int)) ∨
      (param = list (.scalars .real) ∧ arg = list (.scalars .int)) := by
  constructor
  · intro accepted
    unfold accepts at accepted
    rcases Bool.or_eq_true _ _ ▸ accepted with same | wider
    · exact .inl (beq_iff_eq.1 same).symm
    · split at wider <;> simp_all
  · rintro (rfl | ⟨rfl, rfl⟩ | ⟨rfl, rfl⟩ | ⟨rfl, rfl⟩)
    · simp [accepts]
    all_goals rfl

namespace Value

variable {root : Item}

inductive HasTy (root : Item) : Value → Ty → Prop
  | bool (b : Bool) : HasTy root (.bool b) .bool
  | int (n : Int64) : HasTy root (.int n) .int
  | real (x : Float) : HasTy root (.real x) .real
  | text (s : String) : HasTy root (.text s) .text
  | list {vs : List Value} {e : ElemTy} : (∀ v ∈ vs, HasTy root v e.toTy) →
      HasTy root (.list vs) (.list e)
  | record {r : Record} : r.Within root → HasTy root (.record r) (.record r.kind)
  | mods {m : Mods} : m.Within root → HasTy root (.mods m) .mods
  | intStats (t : StatTable Int64) : HasTy root (.intStats t) .intStats
  | realStats (t : StatTable Float) : HasTy root (.realStats t) .realStats
  | comparison (mode : Text.CaseMode) : HasTy root (.comparison mode) .comparison

/-- Whether a value can be passed where a value of type `ty` is wanted. -/
def Fits (root : Item) (v : Value) (ty : Ty) : Prop := ∃ arg, ty.accepts arg ∧ v.HasTy root arg

theorem HasTy.fits {v : Value} {ty : Ty} (h : v.HasTy root ty) : v.Fits root ty :=
  ⟨ty, by simp [Ty.accepts], h⟩

end Value

namespace Conduct

variable {C : Conduct} {v : Value}

open Value (HasTy Fits)

/-! ## Reading values -/

theorem answers_asBool (h : v.HasTy C.root .bool) : C.Answers v.asBool fun _ => True := by
  cases h
  exact trivial

theorem answers_asInt (h : v.HasTy C.root .int) : C.Answers v.asInt fun _ => True := by
  cases h
  exact trivial

theorem answers_asText (h : v.HasTy C.root .text) : C.Answers v.asText fun _ => True := by
  cases h
  exact trivial

theorem answers_asReal {ty : Ty} (numeric : ty.isNumeric) (h : v.HasTy C.root ty) :
    C.Answers v.asReal fun _ => True := by
  cases h <;> first | exact trivial | cases numeric

theorem answers_print {ty : Ty} (printable : ty.isPrintable) (h : v.HasTy C.root ty) :
    C.Answers v.print fun _ => True := by
  cases h <;> first | exact trivial | cases printable

theorem answers_asMode (h : v.HasTy C.root .comparison) :
    C.Answers (Eval.asMode v) fun _ => True := by
  cases h
  exact trivial

theorem answers_asMods (h : v.HasTy C.root .mods) :
    C.Answers v.asMods fun mods => mods.Within C.root := by
  cases h
  assumption

theorem answers_elements {ty elem : Ty} (sequence : ty.element? = some elem)
    (h : v.HasTy C.root ty) :
    C.Answers v.elements fun vs => ∀ v ∈ vs, v.HasTy C.root elem := by
  cases h with
  | list elements =>
    obtain rfl := Option.some.inj sequence
    exact elements
  | @mods m within =>
    obtain rfl := Option.some.inj sequence
    intro v mem
    obtain ⟨placed, -, rfl⟩ := List.mem_map.1 mem
    exact .record (r := .modifier placed) trivial
  | _ => cases sequence

/-! ## Reading what is passed -/

theorem answers_mapM {α β : Type} {f : α → Except Fault β} {P : β → Prop} {as : List α}
    (h : ∀ a ∈ as, C.Answers (f a) P) : C.Answers (as.mapM f) fun bs => ∀ b ∈ bs, P b := by
  induction as with
  | nil => exact fun _ mem => nomatch mem
  | cons a as ih =>
    rw [List.mapM_cons]
    apply (h a (.head as)).bind
    intro b first
    refine (ih fun a mem => h a (.tail _ mem)).bind fun bs rest => ?_
    exact List.forall_mem_cons.2 ⟨first, rest⟩

theorem answers_asList {e : ElemTy} (h : v.HasTy C.root (.list e)) :
    C.Answers v.asList fun vs => ∀ v ∈ vs, v.HasTy C.root e.toTy := by
  cases h with
  | list elements => exact elements

theorem answers_asTexts (h : v.HasTy C.root (.list (.scalar .text))) :
    C.Answers v.asTexts fun _ => True :=
  (answers_asList h).bind fun _ elements =>
    (answers_mapM fun v mem => answers_asText (elements v mem)).weaken fun _ _ => trivial

theorem answers_asBools (h : v.HasTy C.root (.list (.scalar .bool))) :
    C.Answers v.asBools fun _ => True :=
  (answers_asList h).bind fun _ elements =>
    (answers_mapM fun v mem => answers_asBool (elements v mem)).weaken fun _ _ => trivial

theorem answers_asTextLists (h : v.HasTy C.root (.list (.scalars .text))) :
    C.Answers v.asTextLists fun _ => True :=
  (answers_asList h).bind fun _ elements =>
    (answers_mapM fun v mem => answers_asTexts (elements v mem)).weaken fun _ _ => trivial

theorem answers_asBoolLists (h : v.HasTy C.root (.list (.scalars .bool))) :
    C.Answers v.asBoolLists fun _ => True :=
  (answers_asList h).bind fun _ elements =>
    (answers_mapM fun v mem => answers_asBools (elements v mem)).weaken fun _ _ => trivial

theorem answers_asReals (h : v.Fits C.root (.list (.scalar .real))) :
    C.Answers v.asReals fun _ => True := by
  obtain ⟨arg, accepted, typed⟩ := h
  have numbers : ∃ s : Scalar, arg = .list (.scalar s) ∧ (Ty.scalar s).isNumeric := by
    rcases Ty.accepts_iff.1 accepted with rfl | ⟨wanted, -⟩ | ⟨-, rfl⟩ | ⟨wanted, -⟩
    · exact ⟨.real, rfl, rfl⟩
    · cases wanted
    · exact ⟨.int, rfl, rfl⟩
    · cases wanted
  obtain ⟨s, rfl, numeric⟩ := numbers
  exact (answers_asList typed).bind fun _ elements =>
    (answers_mapM fun v mem => answers_asReal numeric (elements v mem)).weaken fun _ _ => trivial

end Conduct

/-! ## Fields -/

namespace Reading

variable {α : Type} {root : Item} {a : α}

/-- Whether what is read of records about `a` stays in the family of `root`. -/
def Stays {ty : Ty} (root : Item) (a : α) : Reading α ty → Prop
  | items f => ∀ it ∈ f a, root.Family it
  | mods f => (f a).Within root
  | part _ f | allStats f | price f => root.Family (f a)
  | player f => f a = root.player ∨ f a = none
  | _ => True

theorem run_hasTy {ty : Ty} {reading : Reading α ty} (h : reading.Stays root a) (s : Session) :
    Value.HasTy root ((reading.run a).run s).1 ty := by
  cases reading with
  | bool f => exact .bool _
  | int f => exact .int _
  | real f => exact .real _
  | text f => exact .text _
  | ints f =>
    refine .list fun v mem => ?_
    obtain ⟨n, -, rfl⟩ := List.mem_map.1 mem
    exact .int n
  | texts f =>
    refine .list fun v mem => ?_
    obtain ⟨s, -, rfl⟩ := List.mem_map.1 mem
    exact .text s
  | items f =>
    refine .list fun v mem => ?_
    obtain ⟨it, read, rfl⟩ := List.mem_map.1 mem
    exact .record (r := .item it) (h it read)
  | mods f => exact .mods h
  | stats f => exact .intStats _
  | part p f => exact .record (r := .part p (f a)) h
  | player f => exact .record (r := .player (f a)) h
  | allStats f => exact .intStats _
  | price f => exact .real _

end Reading

section tables

variable {root it : Item}

theorem Item.fields_stay (h : root.Family it) : ∀ field ∈ fields, field.reading.Stays root it := by
  have player := h.eq_or_isBare.imp (congrArg Item.player) And.left
  simp [fields, Reading.Stays, h, player]

theorem PlacedModifier.fields_stay (placed : PlacedModifier) :
    ∀ field ∈ fields, field.reading.Stays root placed := by
  simp [fields, Reading.Stays]

theorem Player.fields_stay {p : Option Player} (h : p = root.player ∨ p = none) :
    ∀ field ∈ fields, field.reading.Stays root p := by
  have family {q : Player} (known : p = some q) : root.player = some q := by
    rcases h with rfl | rfl
    · exact known
    · cases known
  cases p with
  | none =>
    simp [fields, Reading.Stays, equippedItems, inventoryItems, ownedItems, ownedGems, carriedFrom]
  | some q =>
    have owned {it : Item} (mem : it ∈ q.ownedItems) : root.Family it := .carried (family rfl) mem
    have gems {it : Item} (mem : it ∈ q.ownedGems) : root.Family it := .ownedGem (family rfl) mem
    have equipped {it : Item} (mem : it ∈ q.equippedItems) : root.Family it :=
      owned (List.mem_append_left _ mem)
    have inventory {it : Item} (mem : it ∈ q.inventoryItems) : root.Family it :=
      owned (List.mem_append_right _ mem)
    simp only [fields, Reading.Stays, List.forall_mem_cons, Option.getD_some]
    exact ⟨trivial, trivial, trivial, trivial, fun _ => equipped, fun _ => inventory,
      fun _ => owned, fun _ => gems, List.forall_mem_nil _⟩

theorem Part.fields_stay (p : Part) (h : root.Family it) :
    ∀ field ∈ p.fields, field.reading.Stays root it := by
  have gems {gem : Item} (mem : gem ∈ it.gems) : root.Family gem := .socketed h mem
  cases p with
  | mods =>
    refine List.forall_mem_append.2 ⟨?_, by simp [Reading.Stays, Mods.Within]⟩
    intro field mem
    obtain ⟨partition, -, rfl⟩ := List.mem_map.1 mem
    exact h
  | _ => simp +contextual [fields, Reading.Stays, h, gems]

theorem Record.fields_stay {r : Record} (h : r.Within root) :
    ∀ field ∈ r.kind.fields, field.reading.Stays root r.subject := by
  obtain ⟨kind, subject⟩ := r
  cases kind with
  | item => exact Item.fields_stay h
  | modifier => exact PlacedModifier.fields_stay subject
  | player => exact Player.fields_stay h
  | part p => exact Part.fields_stay p h

end tables

def RecordKind.named? (k : RecordKind) (name : String) : Option (RecordField k.Subject) :=
  k.fields.find? fun field => field.name = (k.aliases.lookup name).getD name

theorem RecordKind.field?_eq_some {k : RecordKind} {name : String} {index : Nat} {ty : Ty}
    (h : k.field? name = some (index, ty)) :
    ∃ field, k.fields[index]? = some field ∧ field.ty = ty ∧ k.named? name = some field := by
  obtain ⟨i, first, found⟩ := Option.bind_eq_some_iff.1 h
  obtain ⟨field, at_index, same⟩ := Option.map_eq_some_iff.1 found
  obtain ⟨rfl, rfl⟩ := Prod.mk.inj same
  refine ⟨field, at_index, rfl, ?_⟩
  obtain ⟨inside, named, others⟩ := List.findIdx?_eq_some_iff_getElem.1 first
  obtain ⟨_, rfl⟩ := List.getElem?_eq_some_iff.1 at_index
  exact List.find?_eq_some_iff_getElem.2 ⟨named, i, inside, rfl, fun j before => by
    simpa using others j before⟩

theorem RecordKind.named?_eq_none {k : RecordKind} {name : String} (h : k.field? name = none) :
    k.named? name = none := by
  cases first : k.fields.findIdx? fun field => field.name = (k.aliases.lookup name).getD name with
  | none =>
    refine List.find?_eq_none.2 fun field mem => ?_
    rw [List.findIdx?_eq_none_iff.1 first field mem]
    exact Bool.false_ne_true
  | some i =>
    obtain ⟨inside, -⟩ := List.findIdx?_eq_some_iff_getElem.1 first
    simp only [RecordKind.field?, first, Option.bind_some, List.getElem?_eq_getElem inside] at h
    cases h

theorem Conduct.admits_field {C : Conduct} {v : Value} {k : RecordKind} {name : String}
    {index : Nat} {ty : Ty} (h : v.HasTy C.root (.record k))
    (named : k.field? name = some (index, ty)) :
    C.Admits (Eval.field v index) fun v => v.HasTy C.root ty := by
  cases h with
  | @record r within =>
    obtain ⟨field, found, rfl, -⟩ := RecordKind.field?_eq_some named
    have reads : Eval.field (.record r) index = liftM (r.read field) := by
      simp only [Eval.field, Value.asRecord, Eval.pureOf, pure_bind, Record.field?, found,
        Option.map_some]
    rw [reads]
    have mem := List.mem_of_getElem? found
    refine .ask (.read within mem) fun s => ?_
    exact Reading.run_hasTy (Record.fields_stay within field mem) _

end LootFilter
