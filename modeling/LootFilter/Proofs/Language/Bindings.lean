import LootFilter.Proofs.Language.Rules
import LootFilter.Proofs.Value.Typed

/-!
# The lambdas around an expression

While an expression is evaluated every lambda around it has a value for its parameter. The compiler
knows the lambdas by their scopes, and the evaluation has their values on a stack.
-/

namespace LootFilter

/-- A lambda around an expression, and the value of its parameter. -/
structure Binding where
  scope : Scope
  value : Value

/-- The lambdas around an expression, the innermost first. -/
abbrev Bindings := List Binding

def Value.hasField (name : String) : Value → Bool
  | record r => (r.kind.named? name).isSome
  | _ => false

theorem Value.HasTy.hasField {root : Item} {v : Value} {k : RecordKind} {name : String}
    (h : v.HasTy root (.record k)) : v.hasField name = (k.named? name).isSome := by
  cases h
  rfl

namespace Bindings

def scopes (bindings : Bindings) : Scopes := bindings.map Binding.scope

/-- The stack, on which the outermost lambda is number zero. -/
def locals (bindings : Bindings) : Locals := (bindings.map Binding.value).reverse.toArray

def Typed (root : Item) (bindings : Bindings) : Prop :=
  ∀ binding ∈ bindings, binding.value.HasTy root binding.scope.ty

variable {root : Item} {binding : Binding} {bindings : Bindings} {name : String}
  {typed : LootFilter.Typed}

@[simp] theorem scopes_cons : scopes (binding :: bindings) = binding.scope :: bindings.scopes := rfl

theorem length_scopes : bindings.scopes.length = bindings.length := List.length_map ..

theorem locals_cons (scope : Scope) (v : Value) :
    locals (⟨scope, v⟩ :: bindings) = bindings.locals.push v := by
  simp [locals]

theorem size_locals : bindings.locals.size = bindings.length := by simp [locals]

theorem take_locals : bindings.locals.take bindings.scopes.length = bindings.locals := by
  rw [length_scopes, ← size_locals, Array.take_eq_extract, Array.extract_size]

theorem Typed.cons (h : bindings.Typed root) (scope : Scope) {v : Value}
    (value : v.HasTy root scope.ty) : Typed root (⟨scope, v⟩ :: bindings) :=
  List.forall_mem_cons.2 ⟨value, h⟩

theorem locals_innermost : (locals (binding :: bindings))[bindings.scopes.length]? =
    some binding.value := by
  rw [locals_cons, length_scopes, ← size_locals, Array.getElem?_push_size]

theorem locals_further {n : Nat} {v : Value} (h : bindings.locals[n]? = some v) :
    (locals (binding :: bindings))[n]? = some v := by
  have inside : n < bindings.locals.size := (Array.getElem?_eq_some_iff.1 h).1
  rw [locals_cons, Array.getElem?_push_lt inside, ← h, Array.getElem?_eq_getElem inside]

/-- The innermost lambda whose parameter has a name. -/
def param? (name : String) (bindings : Bindings) : Option Binding :=
  bindings.find? fun binding => binding.scope.name = name

theorem param?_of_scopes (h : Typing.param? name bindings.scopes = some typed) :
    ∃ n binding, typed = (.slot n, binding.scope.ty) ∧ bindings.locals[n]? = some binding.value ∧
      bindings.param? name = some binding := by
  induction bindings with
  | nil => cases h
  | cons binding bindings ih =>
    rw [scopes_cons, Typing.param?] at h
    split at h
    · rename_i named
      cases h
      exact ⟨_, binding, rfl, locals_innermost, List.find?_cons_of_pos (decide_eq_true named)⟩
    · rename_i other
      obtain ⟨n, found, rfl, value, first⟩ := ih h
      refine ⟨n, found, rfl, locals_further value, ?_⟩
      rwa [param?, List.find?_cons_of_neg (by simpa using other)]

theorem param?_eq_none (h : Typing.param? name bindings.scopes = none) :
    bindings.param? name = none := by
  induction bindings with
  | nil => rfl
  | cons binding bindings ih =>
    rw [scopes_cons, Typing.param?] at h
    split at h
    · cases h
    · rename_i other
      rw [param?, List.find?_cons_of_neg (by simpa using other)]
      exact ih h

/-- The innermost lambda without a parameter of its own whose element has a field with a name. -/
def element? (name : String) (bindings : Bindings) : Option Binding :=
  bindings.find? fun binding => binding.scope.implicit && binding.value.hasField name

theorem hasField_of_scope {place : Nat} {ty : Ty}
    (h : binding.scope.field? name = some (place, ty)) :
    binding.scope.implicit = true ∧ ∃ k, binding.scope.ty = .record k ∧
      k.field? name = some (place, ty) := by
  unfold Scope.field? at h
  split at h
  · exact ⟨‹_›, _, ‹_›, h⟩
  · cases h

theorem not_hasField_of_scope (value : binding.value.HasTy root binding.scope.ty)
    (missing : binding.scope.field? name = none) :
    (binding.scope.implicit && binding.value.hasField name) = false := by
  obtain ⟨⟨parameter, ty, implicit⟩, v⟩ := binding
  cases implicit with
  | false => rfl
  | true =>
    cases value with
    | record within =>
      rw [Bool.true_and, Value.hasField, RecordKind.named?_eq_none missing]
      rfl
    | _ => rfl

theorem element?_of_scopes (values : bindings.Typed root)
    (h : Typing.elementField? name bindings.scopes = some typed) :
    ∃ n binding k place, typed.1 = .field (.slot n) place ∧
      bindings.locals[n]? = some binding.value ∧ binding.value.HasTy root (.record k) ∧
      k.field? name = some (place, typed.2) ∧ bindings.element? name = some binding := by
  induction bindings with
  | nil => cases h
  | cons binding bindings ih =>
    obtain ⟨value, others⟩ := List.forall_mem_cons.1 values
    rw [scopes_cons, Typing.elementField?] at h
    split at h
    · rename_i place ty found
      cases h
      obtain ⟨implicit, k, record, named⟩ := hasField_of_scope found
      rw [record] at value
      refine ⟨_, binding, k, place, rfl, locals_innermost, value, named, ?_⟩
      refine List.find?_cons_of_pos ?_
      obtain ⟨field, -, -, found⟩ := RecordKind.field?_eq_some named
      rw [implicit, value.hasField, found]
      rfl
    · -- What the scope says about fields is right about the value, so it is passed over, too.
      rename_i missing
      obtain ⟨n, found, k, place, same, stands, record, named, first⟩ := ih others h
      refine ⟨n, found, k, place, same, locals_further stands, record, named, ?_⟩
      simpa only [element?, List.find?_cons, not_hasField_of_scope value missing] using first

theorem element?_eq_none (values : bindings.Typed root)
    (h : Typing.elementField? name bindings.scopes = none) : bindings.element? name = none := by
  induction bindings with
  | nil => rfl
  | cons binding bindings ih =>
    obtain ⟨value, others⟩ := List.forall_mem_cons.1 values
    rw [scopes_cons, Typing.elementField?] at h
    split at h
    · cases h
    · rename_i missing
      have rest := ih others h
      simpa only [element?, List.find?_cons, not_hasField_of_scope value missing] using rest

end Bindings

end LootFilter
