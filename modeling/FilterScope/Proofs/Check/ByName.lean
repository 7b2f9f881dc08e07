import FilterScope.Proofs.Check.Likeness
import FilterScope.Proofs.Schema.ByName

/-!
# How nested types are stored is never seen

Registries that hold the same types may store the types that fields nest in different ways
(`Holds`). No check tells them apart (`Holds.check_eq`): a field leads to the schema that is
registered under the name in its definition, in each of the registries, and what the registries
have under one name is described by one definition. So the scopes of a type look alike, as far as a
check can see.

The registry that resolution makes is one of them, so it could as well keep every type by name.
-/

namespace FilterScope

variable {τ : Type} {defs : List TypeDefinition} {registry registry' : Registry τ}

/-! ## The fields that a definition declares -/

/-- What is declared by the same list is alike, entry by entry. -/
theorem forall₂_of_common {α β γ : Type} {R : γ → α → Prop} {S : γ → β → Prop} {T : α → β → Prop}
    {cs : List γ} {as : List α} {bs : List β} (h : List.Forall₂ R cs as)
    (h' : List.Forall₂ S cs bs) (himp : ∀ c a b, R c a → S c b → T a b) : List.Forall₂ T as bs := by
  induction h generalizing bs with
  | nil =>
    cases h' with
    | nil => exact .nil
  | cons hhead _ ih =>
    cases h' with
    | cons hhead' htail' => exact .cons (himp _ _ _ hhead hhead') (ih htail')

/-- A relation on visible fields holds whenever one definition declares both fields. -/
def RelatesDeclared (registry registry' : Registry τ) (R : VisibleField τ → VisibleField τ → Prop) :
    Prop :=
  ∀ (definition : FieldDefinition) (field field' : Field τ) (owner : String),
    definition.Allows registry field → definition.Allows registry' field' →
      R ⟨field, owner⟩ ⟨field', owner⟩

/-- Schemas that a definition allows declare related fields, one by one. -/
theorem TypeDefinition.Allows.forall₂_own {R : VisibleField τ → VisibleField τ → Prop}
    (hR : RelatesDeclared registry registry' R) {definition : TypeDefinition}
    {schema schema' : Schema τ} (h : definition.Allows registry schema)
    (h' : definition.Allows registry' schema') : List.Forall₂ R schema.own schema'.own := by
  rw [Schema.own, Schema.own, List.forall₂_map_left_iff, List.forall₂_map_right_iff]
  refine forall₂_of_common h.fields h'.fields fun fieldDefinition field field' hfield hfield' => ?_
  rw [h.typeName, h'.typeName]
  exact hR fieldDefinition field field' _ hfield hfield'

/-- Fields of one definition are alike. -/
theorem relatesDeclared_alike : RelatesDeclared registry registry' VisibleField.Alike := by
  intro definition field field' owner hallows hallows'
  cases hallows with
  | plain =>
    cases hallows' with
    | plain => exact ⟨rfl, rfl, rfl⟩
  | nested _ =>
    cases hallows' with
    | nested _ => exact ⟨rfl, rfl, rfl⟩

namespace Holds

/-- So do the supertypes of two schemas of a definition, if there are any. -/
theorem forall₂_inherited (h : Holds defs registry) (h' : Holds defs registry')
    {R : VisibleField τ → VisibleField τ → Prop} (hR : RelatesDeclared registry registry' R)
    {extended : Option String} {supertype supertype' : Option (Schema τ)}
    (hsupertype : SupertypeOf registry extended supertype)
    (hsupertype' : SupertypeOf registry' extended supertype') :
    List.Forall₂ R (supertype.elim [] Schema.own) (supertype'.elim [] Schema.own) := by
  cases hsupertype with
  | absent =>
    cases hsupertype' with
    | absent => exact .nil
  | @found name schema hfind =>
    cases hsupertype' with
    | @found _ schema' hfind' =>
      obtain ⟨definition, hmem, rfl, hallows⟩ := h.allows hfind
      obtain ⟨found', hfound', hallows'⟩ := h'.described definition hmem
      obtain rfl := Option.some.inj (hfind'.symm.trans hfound')
      exact hallows.forall₂_own hR hallows'

/-- The visible fields of a type are related one by one, the inherited ones too. -/
theorem forall₂_visible (h : Holds defs registry) (h' : Holds defs registry')
    {R : VisibleField τ → VisibleField τ → Prop} (hR : RelatesDeclared registry registry' R)
    {definition : TypeDefinition} {schema schema' : Schema τ}
    (hallows : definition.Allows registry schema)
    (hallows' : definition.Allows registry' schema') :
    List.Forall₂ R schema.visible schema'.visible :=
  List.rel_append (hallows.forall₂_own hR hallows')
    (h.forall₂_inherited h' hR hallows.supertype hallows'.supertype)

/-! ## Registries with the same types -/

/-- Two schemas that a definition allows are alike. -/
theorem schema_alike (h : Holds defs registry) (h' : Holds defs registry')
    {definition : TypeDefinition} {schema schema' : Schema τ}
    (hallows : definition.Allows registry schema)
    (hallows' : definition.Allows registry' schema') : schema.Alike schema' where
  typeName := hallows.typeName.trans hallows'.typeName.symm
  visible := h.forall₂_visible h' relatesDeclared_alike hallows hallows'

variable [Described τ]

/-- Ways to store one type lead to schemas that are alike. -/
theorem find_alike (h : Holds defs registry) (h' : Holds defs registry') {typeName : String}
    {nested nested' : Nested τ} (hstores : nested.Stores registry typeName)
    (hstores' : nested'.Stores registry' typeName) :
    FoundAlike (nested.find registry.find?) (nested'.find registry'.find?) := by
  rw [hstores.find_eq, hstores'.find_eq]
  rcases h.find?_cases h' typeName with
    ⟨hnone, hnone'⟩ | ⟨definition, schema, schema', hfind, hfind', hallows, hallows'⟩
  · rw [hnone, hnone']
    exact .missing typeName
  · rw [hfind, hfind']
    exact .found (h.schema_alike h' hallows hallows')

/-- Fields of one definition are alike with what is found for their nested objects. -/
theorem relatesDeclared_alikeWithin (h : Holds defs registry) (h' : Holds defs registry') :
    RelatesDeclared registry registry'
      (VisibleField.AlikeWithin registry.find? registry'.find?) := by
  intro definition field field' owner hallows hallows'
  refine ⟨relatesDeclared_alike definition field field' owner hallows hallows', ?_⟩
  intro nested hnested nested' hnested'
  cases hallows with
  | plain => cases hnested
  | nested hstores =>
    cases hallows' with
    | nested hstores' =>
      obtain rfl := Option.some.inj hnested
      obtain rfl := Option.some.inj hnested'
      exact h.find_alike h' hstores hstores'

/-- The scopes of one type look alike. -/
theorem scope_alike (h : Holds defs registry) (h' : Holds defs registry')
    {definition : TypeDefinition} {schema schema' : Schema τ}
    (hallows : definition.Allows registry schema)
    (hallows' : definition.Allows registry' schema') (config : Config) :
    Scope.Alike ⟨schema, registry.find?, config⟩ ⟨schema', registry'.find?, config⟩ where
  config := rfl
  typeName := hallows.typeName.trans hallows'.typeName.symm
  visible := h.forall₂_visible h' (h.relatesDeclared_alikeWithin h') hallows hallows'

/-- No check tells registries apart that hold the same types. -/
theorem check_eq (h : Holds defs registry) (h' : Holds defs registry') (config : Config)
    (filter typeName : String) :
    Validator.check ⟨registry, config⟩ filter typeName =
      Validator.check ⟨registry', config⟩ filter typeName := by
  rw [Validator.check, Validator.check]
  split
  · rfl
  · rcases h.find?_cases h' typeName with
      ⟨hnone, hnone'⟩ | ⟨definition, schema, schema', hfind, hfind', hallows, hallows'⟩
    · rw [hnone, hnone']
    · rw [hfind, hfind']
      exact congrArg Except.ok ((h.scope_alike h' hallows hallows' config).checkText filter)

end Holds

/-! ## The registry that is built -/

/-- **Whether resolution keeps a type by name is never seen.** The registry of definitions, however
its document is written, is told apart by no check from the one with every type kept by name, nor
from any other registry that holds the types of the same definitions. -/
theorem check_ofDefinitions_eq [Described τ] (h : Registry.ofDefinitions defs = .ok registry) :
    (∀ text, readDefinitions text = .ok defs → Registry.ofDocument text = .ok registry) ∧
    (Holds defs registry.byName ∧ registry.byName.KeepsNames) ∧
    ∀ reference : Registry τ, Holds defs reference → ∀ config filter typeName,
      Validator.check ⟨registry, config⟩ filter typeName =
        Validator.check ⟨reference, config⟩ filter typeName := by
  have hholds : Holds defs registry := .of_ofDefinitions h
  refine ⟨fun text hread => ?_, ⟨hholds.byName, hholds.keepsNames_byName⟩, ?_⟩
  · rw [ofDocument_eq hread, h]
    rfl
  · exact fun reference hreference => hholds.check_eq hreference

theorem check_ofDefinitions_eq_mixedLoop :
    ∃ registry : Registry Empty, Registry.ofDefinitions mixedLoop = .ok registry ∧
      registry.byName ≠ registry ∧ ∀ config filter typeName,
        Validator.check ⟨registry, config⟩ filter typeName =
          Validator.check ⟨registry.byName, config⟩ filter typeName := by
  have hexists : ∃ registry : Registry Empty, Registry.ofDefinitions mixedLoop = .ok registry :=
    (exists_ofDefinitions_iff (by decide)).mpr mixedLoop_resolvable
  obtain ⟨registry, h⟩ := hexists
  obtain ⟨-, ⟨hholds, hkeeps⟩, hcheck⟩ := check_ofDefinitions_eq h
  refine ⟨registry, h, fun heq => ?_, hcheck registry.byName hholds⟩
  rw [heq] at hkeeps
  exact not_keepsNames_mixedLoop h hkeeps

end FilterScope
