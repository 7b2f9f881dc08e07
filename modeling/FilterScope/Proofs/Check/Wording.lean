import FilterScope.Proofs.Check.Findings

/-!
# How a violation is worded

What is found along a selector does not depend on how violations are reported (`Finds`). So the two
ways to report agree on which comparison of a filter fails, on the kind of its violation and on the
segment at fault. They differ in one word of one case: an unknown second segment is reported against
the root or against the nested type (`Worded`).
-/

namespace FilterScope

open FilterScope.Filter

variable {τ : Type}

/-! ## The wording of one finding -/

/-- The scope with unknown fields reported against the given type. -/
def Scope.reporting (scope : Scope τ) (context : NestedContext) : Scope τ :=
  { scope with config := ⟨context⟩ }

/-- The name of a nested type: that of its schema, or the one that it is looked up by in vain. -/
def Nested.typeName [Described τ] (provider : Provider τ) (nested : Nested τ) : String :=
  match nested.find provider with
  | .ok schema => schema.typeName
  | .error typeName => typeName

/-- A nested type that is found goes by the name of its schema. -/
theorem Nested.typeName_of_ok [Described τ] {provider : Provider τ} {nested : Nested τ}
    {schema : Schema τ} (h : nested.find provider = .ok schema) :
    nested.typeName provider = schema.typeName := by
  rw [typeName, h]

/-- A nested type that is not found goes by the name that it is kept by. -/
theorem Nested.typeName_of_error [Described τ] {provider : Provider τ} {nested : Nested τ}
    {name : String} (h : nested.find provider = .error name) : nested.typeName provider = name := by
  rw [typeName, h]

/-- The violations that a selector has when it is reported against the root and when it is reported
against the nested type. -/
inductive Worded [Described τ] (root : Schema τ) (provider : Provider τ) (selector : Selector) :
    Violation → Violation → Prop where
  /-- a selector that ends at a nested object is reported in one way only -/
  | missing (segment owner : String) : Worded root provider selector
      (.missingNestedSelector segment owner) (.missingNestedSelector segment owner)
  /-- an unknown first segment is reported against the root in any case -/
  | first {segment : String} {more : List String} (hpath : selector.path = segment :: more)
      (hfield : root.field? segment = none) : Worded root provider selector
        (.unknownField segment root.typeName) (.unknownField segment root.typeName)
  /-- an unknown second segment is reported against the root or against the nested type -/
  | second {name segment : String} {more : List String} {found : VisibleField τ} {nested : Nested τ}
      (hpath : selector.path = name :: segment :: more) (hfield : root.field? name = some found)
      (hnested : found.field.nested = some nested)
      (hunknown : ∀ schema, nested.find provider = .ok schema → schema.field? segment = none) :
      Worded root provider selector
        (.unknownField segment root.typeName) (.unknownField segment (nested.typeName provider))

section Worded

variable [Described τ] {root : Schema τ} {provider : Provider τ} {selector : Selector}
  {violation violation' : Violation}

/-- Wording does not change of what kind a violation is. -/
theorem Worded.kind_eq (h : Worded root provider selector violation violation') :
    violation.kind = violation'.kind := by
  cases h <;> rfl

/-- Wording does not change which selector a violation names. -/
theorem Worded.selector?_eq (h : Worded root provider selector violation violation') :
    violation.selector? = violation'.selector? := by
  cases h <;> rfl

end Worded

namespace Scope

variable [Described τ] (scope : Scope τ)

/-- A selector is valid for both ways to report, or has a violation for each of them. -/
theorem checkSelector_worded (selector : Selector) :
    (∀ context, (scope.reporting context).checkSelector selector = .valid) ∨
      ∃ violation violation',
        (scope.reporting .rootType).checkSelector selector = .invalid violation ∧
        (scope.reporting .nestedType).checkSelector selector = .invalid violation' ∧
        Worded scope.root scope.provider selector violation violation' := by
  obtain ⟨first, more, finding, hpath, hfinds⟩ := selector.exists_finds scope.root scope.provider
  -- The same is found, whatever type it is reported against.
  have heq : ∀ context, (scope.reporting context).checkSelector selector =
      finding.outcome (scope.reporting context) := by
    intro context
    exact checkSelector_of_finds hpath hfinds
  simp only [heq]
  cases hfinds with
  | plain => exact .inl fun _ => rfl
  | unknown hfield => exact .inr ⟨_, _, rfl, rfl, .first hpath hfield⟩
  | alone => exact .inr ⟨_, _, rfl, rfl, .missing _ _⟩
  | unavailable hfield hnested hfind =>
    refine .inr ⟨_, _, rfl, rfl, Nested.typeName_of_error hfind ▸ .second hpath hfield hnested ?_⟩
    intro schema hschema
    cases hfind.symm.trans hschema
  | inside hfield hnested hfind hinside =>
    cases hinside with
    | plain => exact .inl fun _ => rfl
    | nested => exact .inr ⟨_, _, rfl, rfl, .missing _ _⟩
    | unknown hunknown =>
      refine .inr ⟨_, _, rfl, rfl, Nested.typeName_of_ok hfind ▸ .second hpath hfield hnested ?_⟩
      intro schema hschema
      obtain rfl := Except.ok.inj (hfind.symm.trans hschema)
      exact hunknown

end Scope

/-! ## The wording of an outcome -/

/-- A check of an expression stops at a comparison: those before it are valid, and its violation is
the outcome. -/
structure Scope.StopsAt [Described τ] (scope : Scope τ) (expr : Expr) (before : List Comparison)
    (leaf : Comparison) (violation : Violation) : Prop where
  /-- the comparison stands behind the others -/
  comparisons : ∃ after, expr.comparisons = before ++ leaf :: after
  /-- the others are valid -/
  before : ∀ earlier ∈ before, scope.check (.comparison earlier) = .valid
  /-- the violation is its own -/
  leaf : scope.check (.comparison leaf) = .invalid violation
  /-- and that of the expression -/
  check : scope.check expr = .invalid violation

namespace Scope

variable [Described τ] (scope : Scope τ)

/-- A check stops at the first comparison with a violation. -/
theorem stopsAt_of_leaf {expr : Expr} {before after : List Comparison} {leaf : Comparison}
    {violation : Violation} (hleaves : expr.comparisons = before ++ leaf :: after)
    (hbefore : ∀ earlier ∈ before, scope.check (.comparison earlier) = .valid)
    (hleaf : scope.check (.comparison leaf) = .invalid violation) :
    scope.StopsAt expr before leaf violation := by
  refine ⟨⟨after, hleaves⟩, hbefore, hleaf, ?_⟩
  have hfirst : Outcome.first (scope.outcomes before) = .valid :=
    Outcome.first_eq_valid_iff.mpr (List.forall_mem_map.mpr hbefore)
  rw [check_eq_first, hleaves, outcomes, List.map_append, Outcome.first_append, List.map_cons,
    hleaf, ← outcomes, hfirst]
  rfl

/-- Whether a comparison is valid does not depend on how violations are reported. -/
theorem check_comparison_eq_valid_iff (context context' : NestedContext)
    (comparison : Comparison) :
    (scope.reporting context).check (.comparison comparison) = .valid ↔
      (scope.reporting context').check (.comparison comparison) = .valid := by
  rw [check_comparison, check_comparison, checkSelector_eq_valid_iff, checkSelector_eq_valid_iff]
  rfl

/-- **How violations are reported is a matter of wording.** Report the violations of an expression
against the root, and report them against nested types. Either it is valid both times; or the check
stops at the same comparison, with violations of the same kind and with the same segment, which are
the same violation but for the type that an unknown segment of a nested object is reported
against. -/
theorem check_reporting (expr : Expr) :
    ((scope.reporting .rootType).check expr = .valid ∧
      (scope.reporting .nestedType).check expr = .valid) ∨
    ∃ before leaf violation violation',
      (scope.reporting .rootType).StopsAt expr before leaf violation ∧
      (scope.reporting .nestedType).StopsAt expr before leaf violation' ∧
      violation.kind = violation'.kind ∧ violation.selector? = violation'.selector? ∧
      Worded scope.root scope.provider leaf.selector violation violation' := by
  by_cases hvalid : (scope.reporting .rootType).check expr = .valid
  · refine .inl ⟨hvalid, ?_⟩
    rw [check_eq_valid_iff] at hvalid ⊢
    intro leaf hleaf
    exact (scope.check_comparison_eq_valid_iff _ _ leaf).mp (hvalid leaf hleaf)
  · obtain ⟨before, leaf, after, hleaves, hbefore, hleaf, -⟩ :=
      (scope.reporting .rootType).exists_leaf_of_check_ne_valid hvalid
    rw [check_comparison] at hleaf
    rcases scope.checkSelector_worded leaf.selector with
      hboth | ⟨violation, violation', hroot, hnested, hworded⟩
    · exact absurd (hboth .rootType) hleaf
    · rw [← check_comparison] at hroot hnested
      have hbefore' : ∀ earlier ∈ before,
          (scope.reporting .nestedType).check (.comparison earlier) = .valid := by
        intro earlier hmem
        exact (scope.check_comparison_eq_valid_iff _ _ earlier).mp (hbefore earlier hmem)
      exact .inr ⟨before, leaf, violation, violation', stopsAt_of_leaf _ hleaves hbefore hroot,
        stopsAt_of_leaf _ hleaves hbefore' hnested, hworded.kind_eq, hworded.selector?_eq, hworded⟩

/-- An unknown field of an address is reported against the person or against the address. -/
example :
    let scope : Scope Empty :=
      ⟨⟨"Person", [.resolved "address" ⟨"Address", [.plain "city"], none⟩], none⟩, .none, .default⟩
    let expr : Expr := .comparison ⟨⟨"address.zip"⟩, .equal, ["9000"]⟩
    (scope.reporting .rootType).check expr = .invalid (.unknownField "zip" "Person") ∧
      (scope.reporting .nestedType).check expr = .invalid (.unknownField "zip" "Address") := by
  decide

end Scope

end FilterScope
