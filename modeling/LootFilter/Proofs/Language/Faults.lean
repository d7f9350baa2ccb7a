import LootFilter.Proofs.Language.Soundness

/-!
# What an accepted rule comes to

An accepted rule holds or does not hold, or ends with a fault that a node of its term accounts for.
It never meets a value of an unexpected kind.
-/

namespace LootFilter

variable {schema : Schema} {text : String} {condition : Term}

theorem Schema.standard_sound : Schema.standard.Sound where
  helpers := Helper.standard_sound
  variadic := by
    simp only [standard, Helper.standard, List.forall_mem_cons]
    simp [Ty.IsStrict, ElemTy.toTy]

theorem Schema.compile_ok (h : schema.compile text = .ok condition) :
    ∃ e : Expr, e.compile schema [] = .ok (condition, .bool) := by
  simp only [compile, Typing.bind_eq_ok] at h
  obtain ⟨e, -, ⟨t, ty⟩, compiled, h⟩ := h
  dsimp only at h
  split at h
  · rename_i bool
    cases h
    exact ⟨e, bool ▸ compiled⟩
  · cases h

theorem Schema.admits_evaluate (sound : schema.Sound)
    (compiled : schema.compile text = .ok condition) (it : Item) :
    (condition.conduct schema.helpers it).Admits (schema.evaluate condition it) fun _ => True := by
  obtain ⟨e, compiled⟩ := compile_ok compiled
  unfold evaluate
  rw [Term.run_within]
  have values : Bindings.Typed it [] := nofun
  have gives := Expr.isSound sound e [] _ compiled (condition.conduct schema.helpers it) [] rfl values
  apply (gives (Conduct.permits_self it)).bind
  intro v value
  exact (Conduct.answers_asBool value).admits

/-- Whether the nodes of a rule's term account for an answer. -/
def Term.Explains (t : Term) : Except Fault Bool → Prop
  | .ok _ => True
  | .error .divideByZero => ∃ node : Term, node.IsIn t ∧ node.IsWholeDivision
  | .error (.indexOutOfRange ..) => ∃ node : Term, node.IsIn t ∧ node.IsIndex
  | .error .emptySequence => ∃ node : Term, node.IsIn t ∧ node.IsFirst
  | .error (.lengthMismatch ..) => ∃ node : Term, node.IsIn t ∧
      node.Calls Helper.standard fun helper => helper.name = "ModWeightedStatSum"
  | .error (.typeMismatch _) => False

/-- Whatever the item and whatever is kept with items already, an accepted rule holds or does not
hold, or ends with a fault that is explained by its term. -/
theorem Schema.evaluate_explained (compiled : Schema.standard.compile text = .ok condition)
    (it : Item) (s : Session) :
    condition.Explains ((Schema.standard.evaluate condition it).run.run s).1 := by
  have answers := (admits_evaluate standard_sound compiled it).answers s
  unfold Conduct.Answers at answers
  split at answers
  · rename_i b answer
    rw [answer]
    trivial
  · rename_i fault answer
    rw [answer]
    obtain ⟨node, inside, raises⟩ := answers
    cases fault with
    | typeMismatch mismatch => exact raises
    | _ => exact ⟨node, inside, raises⟩

theorem Schema.quotient_explained : ∃ condition : Term,
    Schema.standard.compile "ItemLevel / 0 == 1" = .ok condition ∧
      condition.Explains ((Schema.standard.evaluate condition default).run.run {}).1 := by
  have accepted : (Schema.standard.compile "ItemLevel / 0 == 1").isOk := by decide +kernel
  obtain ⟨condition, compiled⟩ := Typing.ok_of_isOk accepted
  exact ⟨condition, compiled, evaluate_explained compiled default {}⟩

end LootFilter
