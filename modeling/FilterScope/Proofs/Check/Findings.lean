import FilterScope.Proofs.Check.Leaves

/-!
# What is found along a selector

A selector is followed for two segments at most, and one of four things comes of it (`Finding`).
Which one is a matter of the root and of what its nested objects lead to (`Finds`). Only then is it
put in words (`Finding.outcome`), and only there does it matter how violations are reported.

There is one rule for each way in which a selector can end. Some rule always applies
(`exists_finds`), and what the rules say is what the check answers (`Scope.checkPath_of_finds`). So
a law about checks is a law about the rules.
-/

namespace FilterScope

open FilterScope.Filter

variable {τ : Type}

/-! ## Findings -/

/-- What comes of following a selector. -/
inductive Finding where
  /-- the last segment that is looked at names a plain field -/
  | accepted
  /-- the segment names a nested object, which the given type declares, and none follows it -/
  | nestedObject (segment owner : String)
  /-- the first segment names no visible field of the root -/
  | unknownAtRoot (segment : String)
  /-- the second segment names no visible field of the nested type -/
  | unknownInside (segment typeName : String)

/-- A finding in words. -/
def Finding.outcome (scope : Scope τ) : Finding → Outcome
  | .accepted => .valid
  | .nestedObject segment owner => .invalid (.missingNestedSelector segment owner)
  | .unknownAtRoot segment => .invalid (.unknownField segment scope.root.typeName)
  | .unknownInside segment typeName => .invalid (.unknownField segment (scope.context typeName))

/-- Only an accepted path is valid. -/
theorem Finding.outcome_eq_valid_iff {scope : Scope τ} {finding : Finding} :
    finding.outcome scope = .valid ↔ finding = .accepted := by
  cases finding <;> simp [outcome]

/-- What is found when a segment is looked up in a nested type. -/
inductive Schema.FindsInside (schema : Schema τ) (name : String) : Finding → Prop where
  /-- no visible field has the name -/
  | unknown (hfield : schema.field? name = none) :
      FindsInside schema name (.unknownInside name schema.typeName)
  /-- the name stands for a plain field -/
  | plain {found : VisibleField τ} (hfield : schema.field? name = some found)
      (hplain : found.field.nested = none) : FindsInside schema name .accepted
  /-- the name stands for a nested object, whose own type is not asked for -/
  | nested {found : VisibleField τ} {nested : Nested τ} (hfield : schema.field? name = some found)
      (hnested : found.field.nested = some nested) :
      FindsInside schema name (.nestedObject name found.declaredOn)

/-- What is found along a selector, given as its first segment and those behind it. -/
inductive Finds [Described τ] (root : Schema τ) (provider : Provider τ) :
    String → List String → Finding → Prop where
  /-- no visible field has the name of the first segment -/
  | unknown {first : String} {more : List String} (hfield : root.field? first = none) :
      Finds root provider first more (.unknownAtRoot first)
  /-- the first segment stands for a plain field, so the others are passed over -/
  | plain {first : String} {more : List String} {found : VisibleField τ}
      (hfield : root.field? first = some found) (hplain : found.field.nested = none) :
      Finds root provider first more .accepted
  /-- the only segment stands for a nested object -/
  | alone {first : String} {found : VisibleField τ} {nested : Nested τ}
      (hfield : root.field? first = some found) (hnested : found.field.nested = some nested) :
      Finds root provider first [] (.nestedObject first found.declaredOn)
  /-- the type of the nested object is not to be had, so the second segment is unknown -/
  | unavailable {first next typeName : String} {more : List String} {found : VisibleField τ}
      {nested : Nested τ} (hfield : root.field? first = some found)
      (hnested : found.field.nested = some nested)
      (hfind : nested.find provider = .error typeName) :
      Finds root provider first (next :: more) (.unknownInside next typeName)
  /-- the second segment is looked up in the nested type, and those behind it are passed over -/
  | inside {first next : String} {more : List String} {found : VisibleField τ}
      {nested : Nested τ} {schema : Schema τ} {finding : Finding}
      (hfield : root.field? first = some found) (hnested : found.field.nested = some nested)
      (hfind : nested.find provider = .ok schema) (hinside : schema.FindsInside next finding) :
      Finds root provider first (next :: more) finding

/-! ## Some rule applies -/

/-- Inside a nested object every name leads to a finding. -/
theorem Schema.exists_findsInside (schema : Schema τ) (name : String) :
    ∃ finding, schema.FindsInside name finding := by
  cases hfield : schema.field? name with
  | none => exact ⟨_, .unknown hfield⟩
  | some found =>
    cases hnested : found.field.nested with
    | none => exact ⟨_, .plain hfield hnested⟩
    | some nested => exact ⟨_, .nested hfield hnested⟩

/-- Every path leads to a finding. -/
theorem exists_finds [Described τ] (root : Schema τ) (provider : Provider τ) (first : String)
    (more : List String) : ∃ finding, Finds root provider first more finding := by
  cases hfield : root.field? first with
  | none => exact ⟨_, .unknown hfield⟩
  | some found =>
    cases hnested : found.field.nested with
    | none => exact ⟨_, .plain hfield hnested⟩
    | some nested =>
      cases more with
      | nil => exact ⟨_, .alone hfield hnested⟩
      | cons next more =>
        cases hfind : nested.find provider with
        | error typeName => exact ⟨_, .unavailable hfield hnested hfind⟩
        | ok schema =>
          obtain ⟨finding, hinside⟩ := schema.exists_findsInside next
          exact ⟨finding, .inside hfield hnested hfind hinside⟩

/-- A selector has a first segment. -/
theorem Filter.Selector.exists_path_eq_cons (selector : Selector) :
    ∃ first more, selector.path = first :: more := by
  have hne : selector.segments ≠ [] := by
    rw [Selector.segments, Ne, List.map_eq_nil_iff]
    exact Text.cutAt_ne_nil '.' selector.text.toList
  obtain ⟨first, more, hsegments⟩ := List.exists_cons_of_ne_nil hne
  rw [Selector.path, hsegments]
  exact ⟨first, _, rfl⟩

/-- So does the path of every selector. -/
theorem Filter.Selector.exists_finds [Described τ] (selector : Selector) (root : Schema τ)
    (provider : Provider τ) :
    ∃ first more finding, selector.path = first :: more ∧
      Finds root provider first more finding := by
  obtain ⟨first, more, hpath⟩ := selector.exists_path_eq_cons
  obtain ⟨finding, hfinds⟩ := FilterScope.exists_finds root provider first more
  exact ⟨first, more, finding, hpath, hfinds⟩

/-! ## Checks answer what is found -/

namespace Scope

variable {scope : Scope τ}

/-- An unknown field of the root is reported against the root in any case. -/
theorem context_root (scope : Scope τ) :
    scope.context scope.root.typeName = scope.root.typeName := by
  rw [context]
  split <;> rfl

/-- Inside a nested object the check comes to the outcome of what is found there. -/
theorem checkNested_of_findsInside {schema : Schema τ} {name : String} {finding : Finding}
    (h : schema.FindsInside name finding) :
    scope.checkNested schema name = finding.outcome scope := by
  cases h with
  | unknown hfield => simp only [checkNested, hfield, Finding.outcome]
  | plain hfield hplain => simp only [checkNested, hfield, hplain, Finding.outcome]
  | nested hfield hnested => simp only [checkNested, hfield, hnested, Finding.outcome]

variable [Described τ]

/-- The check of a path comes to the outcome of what is found along it. -/
theorem checkPath_of_finds {first : String} {more : List String} {finding : Finding}
    (h : Finds scope.root scope.provider first more finding) :
    scope.checkPath (first :: more) = finding.outcome scope := by
  cases h with
  | unknown hfield => simp only [checkPath, hfield, context_root, Finding.outcome]
  | plain hfield hplain => simp only [checkPath, hfield, hplain, Finding.outcome]
  | alone hfield hnested => simp only [checkPath, hfield, hnested, Finding.outcome]
  | unavailable hfield hnested hfind =>
    simp only [checkPath, hfield, hnested, hfind, Finding.outcome]
  | inside hfield hnested hfind hinside =>
    simp only [checkPath, hfield, hnested, hfind]
    exact checkNested_of_findsInside hinside

/-- The check of a selector comes to the outcome of what is found along its path. -/
theorem checkSelector_of_finds {selector : Selector} {first : String} {more : List String}
    {finding : Finding} (hpath : selector.path = first :: more)
    (hfinds : Finds scope.root scope.provider first more finding) :
    scope.checkSelector selector = finding.outcome scope := by
  rw [checkSelector, hpath, checkPath_of_finds hfinds]

/-- A selector is valid if and only if its path is accepted. -/
theorem checkSelector_eq_valid_iff {selector : Selector} :
    scope.checkSelector selector = .valid ↔
      ∃ first more, selector.path = first :: more ∧
        Finds scope.root scope.provider first more .accepted := by
  constructor
  · intro hvalid
    obtain ⟨first, more, finding, hpath, hfinds⟩ :=
      selector.exists_finds scope.root scope.provider
    rw [checkSelector_of_finds hpath hfinds] at hvalid
    obtain rfl := Finding.outcome_eq_valid_iff.mp hvalid
    exact ⟨first, more, hpath, hfinds⟩
  · rintro ⟨first, more, hpath, hfinds⟩
    exact checkSelector_of_finds hpath hfinds

/-- A comparison is checked by its selector. -/
theorem check_comparison (scope : Scope τ) (comparison : Comparison) :
    scope.check (.comparison comparison) = scope.checkSelector comparison.selector := by
  rw [check]

end Scope

end FilterScope
