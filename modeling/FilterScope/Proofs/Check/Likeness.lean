import Mathlib.Data.List.Forall2
import FilterScope.Proofs.Check.Leaves

/-!
# What a check can see

A check goes one level deep. On the type that is filtered it sees the visible fields, and on the
type of a nested object it sees them too, but there it only asks whether a field is plain. So two
scopes are told apart by no filter if they look alike that far:

* two schemas are alike (`Schema.Alike`) if they have the same name, and visible fields that agree
  one by one in name, in declaring type, and in whether they are plain;
* two scopes are alike (`Scope.Alike`) if their roots are, and corresponding nested fields of the
  roots lead to schemas that are alike, or to none under the same name.

How a nested schema is found plays no part, so the two scopes may find theirs in different ways, and
may even know different families of types in advance.
-/

namespace FilterScope

open FilterScope.Filter

variable {τ τ' : Type}

/-! ## Looking alike -/

/-- Two visible fields have the same name and the same declaring type, and both or neither of them
is plain. -/
structure VisibleField.Alike (found : VisibleField τ) (found' : VisibleField τ') : Prop where
  /-- the same name -/
  name : found.field.name = found'.field.name
  /-- the same declaring type -/
  declaredOn : found.declaredOn = found'.declaredOn
  /-- both nested, or both plain -/
  nested : found.field.nested.isSome = found'.field.nested.isSome

/-- Two schemas have the same name and visible fields that are alike one by one. -/
structure Schema.Alike (schema : Schema τ) (schema' : Schema τ') : Prop where
  /-- the same name -/
  typeName : schema.typeName = schema'.typeName
  /-- the same visible fields, as far as can be seen -/
  visible : List.Forall₂ VisibleField.Alike schema.visible schema'.visible

/-- What is found for two nested objects is alike: two schemas that are, or none under the same
name. -/
inductive FoundAlike : Except String (Schema τ) → Except String (Schema τ') → Prop where
  /-- two schemas -/
  | found {schema : Schema τ} {schema' : Schema τ'} (h : schema.Alike schema') :
      FoundAlike (.ok schema) (.ok schema')
  /-- no schema -/
  | missing (typeName : String) : FoundAlike (.error typeName) (.error typeName)

/-- Two visible fields are alike, and so is what is found for their nested objects. -/
structure VisibleField.AlikeWithin [Described τ] [Described τ'] (provider : Provider τ)
    (provider' : Provider τ') (found : VisibleField τ) (found' : VisibleField τ') : Prop where
  /-- the fields themselves -/
  alike : found.Alike found'
  /-- what is found for the nested objects -/
  inside : ∀ nested ∈ found.field.nested, ∀ nested' ∈ found'.field.nested,
    FoundAlike (nested.find provider) (nested'.find provider')

/-- Two scopes look alike: violations are reported the same way, and the roots are alike with what
is found for their nested objects. -/
structure Scope.Alike [Described τ] [Described τ'] (scope : Scope τ) (scope' : Scope τ') :
    Prop where
  /-- the same settings -/
  config : scope.config = scope'.config
  /-- the same name of the root -/
  typeName : scope.root.typeName = scope'.root.typeName
  /-- the same visible fields of the root, as far as can be seen -/
  visible : List.Forall₂ (VisibleField.AlikeWithin scope.provider scope'.provider)
    scope.root.visible scope'.root.visible

/-! ## Looking names up -/

/-- Two lists that correspond entry by entry have their first matches at the same place. -/
theorem find?_of_forall₂ {α β : Type} {R : α → β → Prop} {p : α → Bool} {q : β → Bool}
    {as : List α} {bs : List β} (h : List.Forall₂ R as bs) (hpq : ∀ a b, R a b → p a = q b) :
    (as.find? p = none ∧ bs.find? q = none) ∨
      ∃ a b, as.find? p = some a ∧ bs.find? q = some b ∧ R a b := by
  induction h with
  | nil => exact .inl ⟨rfl, rfl⟩
  | @cons a b as bs hhead htail ih =>
    rw [List.find?_cons, List.find?_cons, ← hpq a b hhead]
    cases p a with
    | true => exact .inr ⟨a, b, rfl, rfl, hhead⟩
    | false => exact ih

/-- Of two fields that are alike, both nest a type or neither does. -/
theorem VisibleField.Alike.nested_cases {found : VisibleField τ} {found' : VisibleField τ'}
    (h : found.Alike found') :
    (found.field.nested = none ∧ found'.field.nested = none) ∨
      ∃ nested nested', found.field.nested = some nested ∧ found'.field.nested = some nested' := by
  have hnested := h.nested
  cases hcase : found.field.nested with
  | none =>
    rw [hcase, Option.isSome_none] at hnested
    have hnone := Option.isSome_eq_false_iff.mp hnested.symm
    exact .inl ⟨rfl, Option.isNone_iff_eq_none.mp hnone⟩
  | some nested =>
    rw [hcase, Option.isSome_some] at hnested
    obtain ⟨nested', hnested'⟩ := Option.isSome_iff_exists.mp hnested.symm
    exact .inr ⟨nested, nested', rfl, hnested'⟩

/-- In schemas that are alike, a name finds no field or finds two that are alike. -/
theorem Schema.Alike.field?_cases {schema : Schema τ} {schema' : Schema τ'}
    (h : schema.Alike schema') (name : String) :
    (schema.field? name = none ∧ schema'.field? name = none) ∨
      ∃ found found', schema.field? name = some found ∧ schema'.field? name = some found' ∧
        found.Alike found' :=
  find?_of_forall₂ h.visible fun _ _ hfields => by rw [hfields.name]

namespace Scope.Alike

variable [Described τ] [Described τ'] {scope : Scope τ} {scope' : Scope τ'}

/-- In scopes that are alike, a name finds no field or finds two that are alike. -/
theorem field?_cases (h : scope.Alike scope') (name : String) :
    (scope.root.field? name = none ∧ scope'.root.field? name = none) ∨
      ∃ found found', scope.root.field? name = some found ∧
        scope'.root.field? name = some found' ∧
        found.AlikeWithin scope.provider scope'.provider found' :=
  find?_of_forall₂ h.visible fun _ _ hfields => by rw [hfields.alike.name]

theorem context (h : scope.Alike scope') (typeName : String) :
    scope.context typeName = scope'.context typeName := by
  rw [Scope.context, Scope.context, h.config, h.typeName]

/-! ## Checking -/

/-- A segment of a nested object is checked alike. -/
theorem checkNested (h : scope.Alike scope') {schema : Schema τ} {schema' : Schema τ'}
    (halike : schema.Alike schema') (name : String) :
    scope.checkNested schema name = scope'.checkNested schema' name := by
  rw [Scope.checkNested, Scope.checkNested, h.context, halike.typeName]
  rcases halike.field?_cases name with
    ⟨hnone, hnone'⟩ | ⟨found, found', hfound, hfound', hfields⟩
  · rw [hnone, hnone']
  · rw [hfound, hfound']
    dsimp only
    rcases hfields.nested_cases with ⟨hplain, hplain'⟩ | ⟨nested, nested', hnested, hnested'⟩
    · rw [hplain, hplain']
    · rw [hnested, hnested', hfields.declaredOn]

/-- A selector is checked alike: what its second segment is looked up in is alike too. -/
theorem checkPath (h : scope.Alike scope') (path : List String) :
    scope.checkPath path = scope'.checkPath path := by
  cases path with
  | nil => rfl
  | cons name more =>
    rw [Scope.checkPath, Scope.checkPath, h.context, h.typeName]
    rcases h.field?_cases name with ⟨hnone, hnone'⟩ | ⟨found, found', hfound, hfound', hfields⟩
    · rw [hnone, hnone']
    · rw [hfound, hfound']
      dsimp only
      rcases hfields.alike.nested_cases with
        ⟨hplain, hplain'⟩ | ⟨nested, nested', hnested, hnested'⟩
      · rw [hplain, hplain']
      · rw [hnested, hnested', hfields.alike.declaredOn]
        cases more with
        | nil => rfl
        | cons next more =>
          have hinside := hfields.inside nested hnested nested' hnested'
          dsimp only
          generalize nested.find scope.provider = result at hinside ⊢
          generalize nested'.find scope'.provider = result' at hinside ⊢
          cases hinside with
          | found halike => exact h.checkNested halike next
          | missing typeName =>
            dsimp only
            rw [h.context]

theorem check (h : scope.Alike scope') (expr : Expr) : scope.check expr = scope'.check expr := by
  have hselector : scope.checkSelector = scope'.checkSelector :=
    funext fun selector => h.checkPath selector.path
  rw [scope.check_eq_first, scope'.check_eq_first, scope.outcomes_eq, scope'.outcomes_eq,
    hselector]

/-- Scopes that look alike are told apart by no filter. -/
theorem checkText (h : scope.Alike scope') (filter : String) :
    scope.checkText filter = scope'.checkText filter := by
  rw [Scope.checkText, Scope.checkText]
  split
  · rfl
  · split
    · rfl
    · exact h.check _

end Scope.Alike

end FilterScope
