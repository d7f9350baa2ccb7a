import LootFilter.Proofs.Language.Congruence

/-!
# Renaming the parameter of a lambda

A parameter can be given any name that does not occur in the body of its lambda, although names are
looked up among parameters, fields of elements, fields of the item and enumerations: the expression
around the lambda is compiled to the same term of the same type, or is rejected for the same reason
at the same place.
-/

namespace LootFilter

namespace Expr

/-! ## Names of parameters -/

mutual

/-- The expression with the name `y` for a parameter `x`, wherever no lambda within it has a
parameter `x` of its own. -/
def rename (x y : String) : Expr → Expr
  | name pos s => name pos (if s = x then y else s)
  | member target field => member (rename x y target) field
  | call pos helper args => call pos helper (renameArgs x y args)
  | method target called args => method (rename x y target) called (renameArgs x y args)
  | index target i => index (rename x y target) (rename x y i)
  | unary pos op operand => unary pos op (rename x y operand)
  | binary op left right => binary op (rename x y left) (rename x y right)
  | logical op first rest => logical op (rename x y first) (renameItems x y rest)
  | choice condition yes no => choice (rename x y condition) (rename x y yes) (rename x y no)
  | array pos items => array pos (renameItems x y items)
  | bool pos b => bool pos b
  | int pos n => int pos n
  | real pos r => real pos r
  | text pos s => text pos s

def renameItems (x y : String) : List Expr → List Expr
  | [] => []
  | e :: es => rename x y e :: renameItems x y es

def renameArgs (x y : String) : List (Arg Expr) → List (Arg Expr)
  | [] => []
  | .plain e :: args => .plain (rename x y e) :: renameArgs x y args
  | .lambda pos param body :: args =>
    .lambda pos param (if param = x then body else rename x y body) :: renameArgs x y args

end

/-- Whether a lambda within the expression has a parameter with the name. -/
inductive Binds (name : String) : Expr → Prop
  | lambda {e body : Expr} {pos : Nat} : .lambda pos name body ∈ e.args → Binds name e
  | part {e part : Expr} : part ∈ e.parts → Binds name part → Binds name e

end Expr

namespace Arg

def rename (x y : String) : Arg Expr → Arg Expr
  | plain e => plain (e.rename x y)
  | lambda pos param body => lambda pos param (if param = x then body else body.rename x y)

def withBody (e : Expr) : Arg Expr → Arg Expr
  | plain _ => plain e
  | lambda pos param _ => lambda pos param e

end Arg

namespace Expr

variable {x y : String}

theorem renameItems_eq_map (items : List Expr) :
    renameItems x y items = items.map (rename x y) := by
  induction items with
  | nil => rfl
  | cons e items ih => rw [renameItems, ih, List.map_cons]

theorem renameArgs_eq_map (args : List (Arg Expr)) :
    renameArgs x y args = args.map (Arg.rename x y) := by
  induction args with
  | nil => rfl
  | cons arg args ih => cases arg <;> rw [renameArgs, ih, List.map_cons, Arg.rename]

theorem name?_rename (e : Expr) :
    (e.rename x y).name? = e.name?.map fun s => if s = x then y else s := by
  cases e <;> rfl

theorem pos_rename (e : Expr) : (e.rename x y).pos = e.pos := by
  induction e using Expr.induction with
  | step e ih => cases e with
    | member | method | index | binary | logical | choice =>
      rw [rename, pos, pos]
      exact ih _ (.head _)
    | _ => rfl

theorem body_mem_parts {e : Expr} {arg : Arg Expr}
    (h : arg ∈ e.args ∨ arg ∈ e.parts.map .plain) : arg.body ∈ e.parts := by
  rcases h with mem | mem
  · cases e with
    | call => exact List.mem_map_of_mem mem
    | method => exact .tail _ (List.mem_map_of_mem mem)
    | _ => cases mem
  · obtain ⟨part, inside, rfl⟩ := List.mem_map.1 mem
    exact inside

/-- Renaming keeps the construct, and renames its parts. -/
theorem alike_rename (e : Expr) :
    e.Alike (fun s s' => e.Mentions s ∧ s' = if s = x then y else s)
      (fun arg arg' => (arg ∈ e.args ∨ arg ∈ e.parts.map .plain) ∧ arg' = arg.rename x y)
      (e.rename x y) := by
  have plain {part : Expr} (mem : part ∈ e.parts) :
      (.plain part ∈ e.args ∨ .plain part ∈ e.parts.map Arg.plain) ∧
        .plain (part.rename x y) = (Arg.plain part).rename x y :=
    ⟨.inr (List.mem_map_of_mem mem), rfl⟩
  have args : List.Forall₂ (fun arg arg' => (arg ∈ e.args ∨ arg ∈ e.parts.map .plain) ∧
      arg' = arg.rename x y) e.args (e.args.map (Arg.rename x y)) :=
    List.forall₂_map_right_iff.2 (List.forall₂_same.2 fun arg mem => ⟨.inl mem, rfl⟩)
  have items (items : List Expr) (mem : ∀ part ∈ items, part ∈ e.parts) :
      List.Forall₂ (fun part part' => (.plain part ∈ e.args ∨ .plain part ∈ e.parts.map Arg.plain) ∧
        .plain part' = (Arg.plain part).rename x y) items (items.map (rename x y)) :=
    List.forall₂_map_right_iff.2 (List.forall₂_same.2 fun part within => plain (mem part within))
  cases e with
  | bool => exact .bool
  | int => exact .int
  | real => exact .real
  | text => exact .text
  | name pos s => exact .name ⟨.name, rfl⟩
  | member target field => exact .member (plain (.head _))
  | call pos called as =>
    rw [rename, renameArgs_eq_map]
    exact .call args
  | method target called as =>
    rw [rename, renameArgs_eq_map]
    exact .method (plain (.head _)) args
  | index target i => exact .index (plain (.head _)) (plain (.tail _ (.head _)))
  | unary pos op operand => exact .unary (plain (.head _))
  | binary op l r => exact .binary (plain (.head _)) (plain (.tail _ (.head _)))
  | logical op first rest =>
    rw [rename, renameItems_eq_map]
    exact .logical (plain (.head _)) (items rest fun _ => .tail _)
  | choice c y n =>
    exact .choice (plain (.head _)) (plain (.tail _ (.head _)))
      (plain (.tail _ (.tail _ (.head _))))
  | array pos es =>
    rw [rename, renameItems_eq_map]
    exact .array (items es fun _ => id)

end Expr

/-! ## Scopes that differ in one name -/

namespace Typing

section agreement

variable {α : Type} {typed typed' : Except CompileError Typed} {t t' : Term}

theorem agree_refl {P : α → α → Prop} (refl : ∀ a, P a a) (x : Except CompileError α) :
    Agree P x x := by
  cases x with
  | ok a => exact .ok (refl a)
  | error e => exact .error e

theorem agree_of_eq (h : typed = typed') : Agree (RelatedAs Eq) typed typed' :=
  h ▸ agree_refl (fun _ => ⟨rfl, rfl⟩) typed

theorem Agree.eq (h : Agree (RelatedAs Eq) typed typed') : typed = typed' := by
  cases h with
  | ok same => rw [Prod.ext same.1 same.2]
  | error e => rfl

theorem related_eq {arg arg' : HelperArg Term} (h : arg.Related Eq Eq arg') : arg = arg' := by
  cases h <;> subst_vars <;> rfl

/-- Operations on the same operands are the same. -/
theorem onRelated_eq (h : t.OnRelated Eq Eq t') : t = t' := by
  cases h with
  | logical each =>
    rw [List.forall₂_eq_eq_eq] at each
    rw [each]
  | array each =>
    rw [List.forall₂_eq_eq_eq] at each
    rw [each]
  | helper each =>
    have same := each.imp fun _ _ => related_eq
    rw [List.forall₂_eq_eq_eq] at same
    rw [same]
  | _ => subst_vars; rfl

end agreement

section scopes

variable {schema : Schema} {inner outer rest rest' : Scopes} {name x y space member : String}
  {ty : Ty} {pos : Nat}

theorem param?_outer (absent : ∀ scope ∈ inner, scope.name ≠ name) :
    param? name (inner ++ rest) = param? name rest := by
  induction inner with
  | nil => rfl
  | cons scope inner ih =>
    obtain ⟨other, absent⟩ := List.forall_mem_cons.1 absent
    rw [List.cons_append, param?, if_neg other, ih absent]

theorem param?_inner (length : rest.length = rest'.length)
    (bound : ∃ scope ∈ inner, scope.name = name) :
    param? name (inner ++ rest) = param? name (inner ++ rest') := by
  induction inner with
  | nil => simp at bound
  | cons scope inner ih =>
    rw [List.cons_append, List.cons_append, param?, param?, List.length_append, length,
      List.length_append]
    split
    · rfl
    · rename_i other
      obtain ⟨found, mem, named⟩ := bound
      rcases List.mem_cons.1 mem with rfl | mem
      · exact (other named).elim
      · exact ih ⟨found, mem, named⟩

theorem param?_renamed (h : (∃ scope ∈ inner, scope.name = name) ∨ x ≠ name ∧ y ≠ name) :
    param? name (inner ++ ⟨x, ty, false⟩ :: outer) =
      param? name (inner ++ ⟨y, ty, false⟩ :: outer) := by
  by_cases bound : ∃ scope ∈ inner, scope.name = name
  · exact param?_inner rfl bound
  · obtain ⟨other, other'⟩ := h.resolve_left bound
    have absent : ∀ scope ∈ inner, scope.name ≠ name := fun scope mem named =>
      bound ⟨scope, mem, named⟩
    rw [param?_outer absent, param?_outer absent, param?, param?, if_neg other, if_neg other']

theorem elementField?_renamed : elementField? name (inner ++ ⟨x, ty, false⟩ :: outer) =
    elementField? name (inner ++ ⟨y, ty, false⟩ :: outer) := by
  induction inner with
  | nil => rfl
  | cons scope inner ih =>
    rw [List.cons_append, List.cons_append, elementField?, elementField?, ih, List.length_append,
      List.length_append]
    rfl

theorem any_renamed (h : (∃ scope ∈ inner, scope.name = space) ∨ x ≠ space ∧ y ≠ space) :
    (inner ++ ⟨x, ty, false⟩ :: outer).any (·.name = space) =
      (inner ++ ⟨y, ty, false⟩ :: outer).any (·.name = space) := by
  rw [List.any_append, List.any_append, List.any_cons, List.any_cons]
  rcases h with ⟨scope, mem, named⟩ | ⟨other, other'⟩
  · have bound : inner.any (·.name = space) := List.any_eq_true.2 ⟨scope, mem, by simpa using named⟩
    rw [bound, Bool.true_or, Bool.true_or]
  · rw [decide_eq_false other, decide_eq_false other']

/-- A name that is bound further inside, or that is neither of the two, stands for the same. -/
theorem namesMatch_renamed (h : (∃ scope ∈ inner, scope.name = name) ∨ x ≠ name ∧ y ≠ name) :
    NamesMatch schema Eq (inner ++ ⟨x, ty, false⟩ :: outer) (inner ++ ⟨y, ty, false⟩ :: outer)
      name name where
  identifier pos := agree_of_eq (by
    rw [identifier, identifier, param?_renamed h, elementField?_renamed])
  constant? member pos := by
    unfold Typing.constant?
    rw [any_renamed h]
    refine agree_refl (fun found => ?_) _
    cases found with
    | none => exact .none
    | some typed => exact .some ⟨rfl, rfl⟩

/-- The parameter itself stands for the same under its new name. -/
theorem namesMatch_parameter (absent : ∀ scope ∈ inner, scope.name ≠ x ∧ scope.name ≠ y) :
    NamesMatch schema Eq (inner ++ ⟨x, ty, false⟩ :: outer) (inner ++ ⟨y, ty, false⟩ :: outer)
      x y where
  identifier pos := agree_of_eq (by
    rw [identifier, identifier, param?_outer fun scope mem => (absent scope mem).1,
      param?_outer fun scope mem => (absent scope mem).2, param?, param?, if_pos rfl, if_pos rfl,
      Option.some_or, Option.some_or])
  constant? member pos := by
    have hidden (name : String) : (inner ++ ⟨name, ty, false⟩ :: outer).any (·.name = name) := by
      simp
    unfold Typing.constant?
    rw [if_pos (hidden x), if_pos (hidden y)]
    exact .absent

end scopes

end Typing

/-! ## Bodies -/

namespace Expr

open Typing (NamesAgree compilesAlike onRelated_eq)

variable {schema : Schema} {inner outer : Scopes} {x y : String} {ty : Ty} {e : Expr}

/-- Behind a lambda with the same parameter the name makes no difference. -/
theorem compile_hidden (bound : ∃ scope ∈ inner, scope.name = x) (fresh : ¬e.Mentions y) :
    e.compile schema (inner ++ ⟨x, ty, false⟩ :: outer) =
      e.compile schema (inner ++ ⟨y, ty, false⟩ :: outer) := by
  have alike : Typing.CompilesAlike schema Eq Eq (· ≠ y) e :=
    compilesAlike (fun _ _ => onRelated_eq) fun name mentioned same => fresh (same ▸ mentioned)
  refine (alike _ _ fun further => ?_).eq
  rw [← List.append_assoc, ← List.append_assoc]
  refine ⟨by simp, fun name other => Typing.namesMatch_renamed ?_⟩
  by_cases same : x = name
  · obtain ⟨scope, mem, named⟩ := bound
    exact .inl ⟨scope, List.mem_append_right _ mem, named.trans same⟩
  · exact .inr ⟨same, other.symm⟩

section rename

variable (explicit : x ≠ "it") (explicit' : y ≠ "it")

include explicit explicit'

theorem pendings_rename {arg : Arg Expr} (fresh : ¬arg.body.Mentions y)
    (other : ∀ pos body, arg ≠ .lambda pos y body)
    (absent : ∀ scope ∈ inner, scope.name ≠ x ∧ scope.name ≠ y)
    (ih : ∀ inner : Scopes, (∀ scope ∈ inner, scope.name ≠ x ∧ scope.name ≠ y) →
      arg.body.compile schema (inner ++ ⟨x, ty, false⟩ :: outer) =
        (arg.body.rename x y).compile schema (inner ++ ⟨y, ty, false⟩ :: outer)) :
    Typing.Pendings Eq (inner ++ ⟨x, ty, false⟩ :: outer) (inner ++ ⟨y, ty, false⟩ :: outer)
      (Typing.pendingArg schema arg) (Typing.pendingArg schema (arg.rename x y)) where
  pos := by
    cases arg with
    | plain e => exact (pos_rename e).symm
    | lambda pos param body => rfl
  param := by cases arg <;> rfl
  alone plain := by
    cases arg with
    | plain e => exact Typing.agree_of_eq (ih inner absent)
    | lambda pos param body => cases plain
  onElements elem := by
    rw [Typing.onElements_eq, Typing.onElements_eq]
    refine Typing.agree_of_eq ?_
    cases arg with
    | plain e =>
      refine ih (⟨"it", elem, true⟩ :: inner) (List.forall_mem_cons.2 ⟨?_, absent⟩)
      exact ⟨explicit.symm, explicit'.symm⟩
    | lambda pos param body =>
      simp only [Arg.rename, Arg.body, Arg.scope]
      split
      · rename_i same
        have bound : ∃ scope ∈ (⟨param, elem, false⟩ :: inner : Scopes), scope.name = x :=
          ⟨_, .head _, same⟩
        exact compile_hidden bound fresh
      · rename_i different
        refine ih (⟨param, elem, false⟩ :: inner) (List.forall_mem_cons.2 ⟨?_, absent⟩)
        exact ⟨different, fun same => other pos body (same ▸ rfl)⟩

/-- Within the lambda, and any lambdas that have parameters of other names, the renamed expression
is compiled to the same. -/
theorem compile_rename (fresh : ¬e.Mentions y) (unbound : ¬e.Binds y)
    (absent : ∀ scope ∈ inner, scope.name ≠ x ∧ scope.name ≠ y) :
    e.compile schema (inner ++ ⟨x, ty, false⟩ :: outer) =
      (e.rename x y).compile schema (inner ++ ⟨y, ty, false⟩ :: outer) := by
  induction e using Expr.induction generalizing inner with
  | step e ih =>
  refine (Typing.compile_agree (fun _ _ => onRelated_eq) e.alike_rename (by simp) ?_ ?_ ?_).eq
  · rintro s _ ⟨mentioned, rfl⟩
    split
    · rename_i same
      subst same
      exact Typing.namesMatch_parameter absent
    · rename_i other
      exact Typing.namesMatch_renamed (.inr ⟨Ne.symm other, fun same => fresh (same ▸ mentioned)⟩)
  · rintro target _ ⟨mem, ⟨⟩⟩
    rw [name?_rename]
    cases target with
    | name pos s => exact .some ⟨.part (body_mem_parts mem) .name, rfl⟩
    | _ => exact .none
  · rintro arg _ ⟨mem, rfl⟩
    have within := body_mem_parts mem
    have fresh : ¬arg.body.Mentions y := fun mentioned => fresh (.part within mentioned)
    refine pendings_rename explicit explicit' fresh ?_ absent fun inner absent =>
      ih _ within fresh (fun binds => unbound (.part within binds)) absent
    rintro pos body rfl
    rcases mem with mem | mem
    · exact unbound (.lambda mem)
    · simp at mem

end rename

/-! ## Around the lambda -/

/-- Whether an argument stays as it is or, if it is `old`, becomes `new`. -/
def Replaces (old new arg arg' : Arg Expr) : Prop := arg' = arg ∨ arg = old ∧ arg' = new

/-- The second expression is the first one with the parameter `x` of a lambda somewhere in it named
`y`. The body of that lambda mentions no `y` and has no lambda with a parameter `y`. -/
inductive Renamed (x y : String) : Expr → Expr → Prop
  | lambda {e e' body : Expr} {pos : Nat} : ¬body.Mentions y → ¬body.Binds y →
      e.Alike Eq (Replaces (.lambda pos x body) (.lambda pos y (body.rename x y))) e' →
      Renamed x y e e'
  | within {e e' part : Expr} {arg : Arg Expr} : Renamed x y arg.body part →
      e.Alike Eq (Replaces arg (arg.withBody part)) e' → Renamed x y e e'

section replaced

variable {e' : Expr} {old new : Arg Expr} {scopes : Scopes}

theorem Alike.head {P : Arg Expr → Arg Expr → Prop} (alike : e.Alike Eq P e')
    (places : ∀ part part', P (.plain part) (.plain part') → part.pos = part'.pos) :
    e.pos = e'.pos ∧ e.name? = e'.name? := by
  cases alike with
  | name same => exact ⟨rfl, congrArg some same⟩
  | member h | method h | index h | binary h | logical h | choice h =>
    have place := places _ _ h
    exact ⟨place, rfl⟩
  | _ => exact ⟨rfl, rfl⟩

theorem Replaces.head {part part' : Expr} (h : Replaces old new (.plain part) (.plain part'))
    (same : old.body.pos = new.body.pos ∧ old.body.name? = new.body.name?) :
    part.pos = part'.pos ∧ part.name? = part'.name? := by
  rcases h with ⟨⟨⟩⟩ | ⟨rfl, rfl⟩
  · exact ⟨rfl, rfl⟩
  · exact same

theorem Renamed.head (renamed : e.Renamed x y e') : e.pos = e'.pos ∧ e.name? = e'.name? := by
  induction renamed with
  | lambda _ _ alike =>
    refine alike.head fun part part' h => ?_
    rcases h with ⟨⟨⟩⟩ | ⟨⟨⟩, -⟩
    rfl
  | @within _ _ part arg _ alike ih =>
    refine alike.head fun part part' h => (h.head ?_).1
    cases arg <;> exact ih

theorem compile_replaced (alike : e.Alike Eq (Replaces old new) e')
    (spaces : ∀ part part', old = .plain part → new = .plain part' → part.name? = part'.name?)
    (same : Typing.Pendings Eq scopes scopes (Typing.pendingArg schema old)
      (Typing.pendingArg schema new)) :
    e.compile schema scopes = e'.compile schema scopes := by
  refine (Typing.compile_agree (fun _ _ => onRelated_eq) alike rfl ?_ ?_ ?_).eq
  · rintro s _ rfl
    refine ⟨fun pos => Typing.agree_of_eq rfl, fun member pos => ?_⟩
    refine Typing.agree_refl (fun found => ?_) _
    cases found with
    | none => exact .none
    | some typed => exact .some ⟨rfl, rfl⟩
  · rintro target target' h
    have same : target.name? = target'.name? := by
      rcases h with ⟨⟨⟩⟩ | ⟨plain, plain'⟩
      · rfl
      · exact spaces _ _ plain.symm plain'.symm
    rw [← same]
    cases target.name? with
    | none => exact .none
    | some s => exact .some rfl
  · rintro arg _ (rfl | ⟨rfl, rfl⟩)
    · exact {
        pos := rfl
        param := rfl
        alone := fun _ => Typing.agree_of_eq rfl
        onElements := fun _ => Typing.agree_of_eq rfl }
    · exact same

end replaced

/-- The expression around the lambda is compiled to the same term of the same type, or rejected for
the same reason at the same place. -/
theorem compile_renamed {e e' : Expr} (explicit : x ≠ "it") (explicit' : y ≠ "it")
    (renamed : e.Renamed x y e') (scopes : Scopes) :
    e'.compile schema scopes = e.compile schema scopes := by
  induction renamed generalizing scopes with
  | lambda fresh unbound alike =>
    have nothing : ∀ scope ∈ ([] : Scopes), scope.name ≠ x ∧ scope.name ≠ y := nofun
    refine (compile_replaced alike nofun ?_).symm
    exact {
      pos := rfl
      param := rfl
      alone := nofun
      onElements := fun elem => Typing.agree_of_eq
        (compile_rename explicit explicit' fresh unbound nothing) }
  | @within _ _ part arg renamed alike ih =>
    have head := renamed.head
    refine (compile_replaced alike ?_ ?_).symm
    · rintro _ _ rfl ⟨⟩
      exact head.2
    · cases arg with
      | plain e =>
        exact {
          pos := head.1
          param := rfl
          alone := fun _ => Typing.agree_of_eq (ih scopes).symm
          onElements := fun elem => Typing.agree_of_eq (ih _).symm }
      | lambda pos param body =>
        exact {
          pos := rfl
          param := rfl
          alone := nofun
          onElements := fun elem => Typing.agree_of_eq (ih _).symm }

/-- An expression makes no use of a name that it does not start with, if its parts make none. -/
theorem unused {e : Expr} (named : e.name? ≠ some y)
    (binders : ∀ arg ∈ e.args, ∀ pos body, arg ≠ .lambda pos y body)
    (parts : ∀ part ∈ e.parts, ¬part.Mentions y ∧ ¬part.Binds y) :
    ¬e.Mentions y ∧ ¬e.Binds y := by
  refine ⟨fun mentioned => ?_, fun bound => ?_⟩
  · rcases mentions_iff.1 mentioned with here | ⟨part, mem, within⟩
    · exact named here
    · exact (parts part mem).1 within
  · cases bound with
    | lambda mem => exact binders _ mem _ _ rfl
    | part mem within => exact (parts _ mem).2 within

/-- A parameter gets the name of a field of its own element, within which another lambda hides it.
-/
theorem compile_renamed_field :
    let body (m : String) : Expr := .logical .and
      (.binary (.compare .gt)
        (.method (.member (.name 30 m) "Values") "Sum" [.lambda 43 "m" (.name 48 "m")])
        (.int 53 3))
      [.binary (.compare .eq) (.member (.name 58 m) "Name") (.text 68 "Gain")]
    let any (m : String) : Expr := .unary 0 .not
      (.method (.member (.name 1 "ModsInfo") "ItemMods") "Any" [.lambda 25 m (body m)])
    (any "m").Renamed "m" "Name" (any "Name") ∧ ((any "m").compile .standard []).isOk ∧
      (any "Name").compile .standard [] = (any "m").compile .standard [] := by
  intro body any
  have fresh : ¬(body "m").Mentions "Name" ∧ ¬(body "m").Binds "Name" := by
    repeat' first
      | exact List.forall_mem_nil _
      | refine List.forall_mem_cons.2 ⟨?_, ?_⟩
      | refine unused (by decide) (by simp [args, Arg.body]) ?_
  have inside : (Expr.method (.member (.name 1 "ModsInfo") "ItemMods") "Any"
      [.lambda 25 "m" (body "m")]).Renamed "m" "Name" _ :=
    .lambda fresh.1 fresh.2 (.method (.inl rfl) (.cons (.inr ⟨rfl, rfl⟩) .nil))
  have renamed : (any "m").Renamed "m" "Name" (any "Name") :=
    @Renamed.within _ _ _ _ _ (.plain _) inside (.unary (.inr ⟨rfl, rfl⟩))
  exact ⟨renamed, rfl, compile_renamed (by decide) (by decide) renamed []⟩

end Expr

end LootFilter
