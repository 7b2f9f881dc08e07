import FilterScope.Proofs.Schema.Registry

/-!
# Registries that hold the same types

A definition says which type a field nests. It does not say how the schema of that type is stored:
it may be held in the field, or be kept by name and looked up later. So a registry that holds the
types of some definitions (`Holds`) may choose, for each reference on its own.

* Resolution makes one of these registries (`Holds.of_ofDefinitions`). It keeps a type by name where
  it has to, and holds its schema elsewhere.
* Keeping every type by name makes another (`Registry.byName`, `Holds.byName`).

Whatever is chosen, looking up the name that is written in the definition finds the schema that the
field leads to (`Nested.Stores.find_eq`): a schema that is held in a field is a registered one.
-/

namespace FilterScope

variable {τ : Type}

/-! ## The types that definitions describe -/

/-- A nested object is stored in one of the two ways to refer to a type of a registry. -/
inductive Nested.Stores (registry : Registry τ) (typeName : String) : Nested τ → Prop where
  /-- the name -/
  | named : Stores registry typeName (.named typeName)
  /-- the schema that is registered under it -/
  | resolved {schema : Schema τ} (hfind : registry.find? typeName = some schema) :
      Stores registry typeName (.resolved schema)

/-- A field is one that a definition declares, however the type that it nests is stored. -/
inductive FieldDefinition.Allows (registry : Registry τ) : FieldDefinition → Field τ → Prop where
  /-- a field that nests no type is plain -/
  | plain {name : String} : Allows registry ⟨name, none⟩ (.plain name)
  /-- any other field refers to the type -/
  | nested {name typeName : String} {nested : Nested τ}
      (hstores : nested.Stores registry typeName) :
      Allows registry ⟨name, some typeName⟩ ⟨name, some nested⟩

/-- A schema is one that a definition describes, however the types that its fields nest are
stored. -/
structure TypeDefinition.Allows (registry : Registry τ) (definition : TypeDefinition)
    (schema : Schema τ) : Prop where
  /-- the defined name -/
  typeName : schema.typeName = definition.name
  /-- the registered schema of the type that is extended, if one is -/
  supertype : SupertypeOf registry definition.supertype schema.supertype
  /-- the declared fields, in order -/
  fields : List.Forall₂ (FieldDefinition.Allows registry) definition.fields schema.fields

/-- A registry holds the types of a list of definitions, and no others. -/
structure Holds (defs : List TypeDefinition) (registry : Registry τ) : Prop where
  /-- each definition has a schema -/
  described : ∀ definition ∈ defs, ∃ schema, registry.find? definition.name = some schema ∧
    definition.Allows registry schema
  /-- nothing else is registered -/
  defined : ∀ name schema, registry.find? name = some schema → Defines defs name

/-! ## Keeping every type by name -/

/-- The nested object with its type kept by name, if that type's schema is held. -/
def Nested.byName : Nested τ → Nested τ
  | .resolved schema => .named schema.typeName
  | .deferred target => .deferred target
  | .named typeName => .named typeName

/-- The field with the type that it nests kept by name. -/
def Field.byName (field : Field τ) : Field τ :=
  ⟨field.name, field.nested.map Nested.byName⟩

/-- The schema with all types that fields nest kept by name, its supertype's included. -/
def Schema.byName : Schema τ → Schema τ
  | ⟨typeName, fields, none⟩ => ⟨typeName, fields.map Field.byName, none⟩
  | ⟨typeName, fields, some supertype⟩ =>
    ⟨typeName, fields.map Field.byName, some supertype.byName⟩

@[simp] theorem Schema.typeName_byName (schema : Schema τ) :
    schema.byName.typeName = schema.typeName := by
  obtain ⟨_, _, _ | _⟩ := schema <;> rw [byName]

@[simp] theorem Schema.fields_byName (schema : Schema τ) :
    schema.byName.fields = schema.fields.map Field.byName := by
  obtain ⟨_, _, _ | _⟩ := schema <;> rw [byName]

@[simp] theorem Schema.supertype_byName (schema : Schema τ) :
    schema.byName.supertype = schema.supertype.map Schema.byName := by
  obtain ⟨_, _, _ | _⟩ := schema <;> rw [byName] <;> rfl

/-- The registry with all types that fields nest kept by name. -/
def Registry.byName (registry : Registry τ) : Registry τ where
  schemas := registry.schemas.map fun _ schema => schema.byName
  named {name found} h := by
    rw [Std.ExtTreeMap.getElem?_map] at h
    obtain ⟨schema, hschema, rfl⟩ := Option.map_eq_some_iff.mp h
    rw [Schema.typeName_byName, registry.named hschema]

/-- A registry turned by name finds what the registry finds, turned by name. -/
theorem Registry.find?_byName (registry : Registry τ) (name : String) :
    registry.byName.find? name = (registry.find? name).map Schema.byName :=
  Std.ExtTreeMap.getElem?_map

/-- Every type that a field of a registered schema nests is kept by name. -/
def Registry.KeepsNames (registry : Registry τ) : Prop :=
  ∀ name schema, registry.find? name = some schema → ∀ field ∈ schema.fields,
    ∀ nested ∈ field.nested, ∃ typeName, nested = .named typeName

/-! ## What a field leads to -/

variable {registry : Registry τ}

/-- However a type is stored, its schema is the one that is found under its name. -/
theorem Nested.Stores.find_eq [Described τ] {typeName : String} {nested : Nested τ}
    (h : nested.Stores registry typeName) :
    nested.find registry.find? = (registry.find? typeName).elim (.error typeName) .ok := by
  cases h with
  | named => rfl
  | resolved hfind =>
    rw [hfind]
    rfl

/-- A schema that is held in a field is registered under its own name, so the name will do. -/
theorem Nested.Stores.byName {typeName : String} {nested : Nested τ}
    (h : nested.Stores registry typeName) : nested.byName = .named typeName := by
  cases h with
  | named => rfl
  | resolved hfind => rw [Nested.byName, registry.named hfind]

theorem FieldDefinition.Allows.byName {definition : FieldDefinition} {field : Field τ}
    (h : definition.Allows registry field) : definition.Allows registry.byName field.byName := by
  cases h with
  | plain => exact .plain
  | nested hstores =>
    rw [Field.byName, Option.map_some, hstores.byName]
    exact .nested .named

theorem SupertypeOf.byName {supertype : Option String} {schema? : Option (Schema τ)}
    (h : SupertypeOf registry supertype schema?) :
    SupertypeOf registry.byName supertype (schema?.map Schema.byName) := by
  cases h with
  | absent => exact .absent
  | found hfind =>
    refine .found ?_
    rw [Registry.find?_byName, hfind]
    rfl

theorem TypeDefinition.Allows.byName {definition : TypeDefinition} {schema : Schema τ}
    (h : definition.Allows registry schema) : definition.Allows registry.byName schema.byName where
  typeName := schema.typeName_byName.trans h.typeName
  supertype := by
    rw [Schema.supertype_byName]
    exact h.supertype.byName
  fields := by
    rw [Schema.fields_byName, List.forall₂_map_right_iff]
    exact h.fields.imp fun _ _ => FieldDefinition.Allows.byName

/-- A field of a registered schema nests no type, or refers to one. -/
theorem TypeDefinition.Allows.exists_stores {definition : TypeDefinition} {schema : Schema τ}
    (h : definition.Allows registry schema) {field : Field τ} (hfield : field ∈ schema.fields)
    {nested : Nested τ} (hnested : nested ∈ field.nested) :
    ∃ typeName, nested.Stores registry typeName := by
  obtain ⟨fieldDefinition, hallows⟩ := exists_of_forall₂ h.fields.flip hfield
  cases hallows with
  | plain => cases hnested
  | nested hstores =>
    obtain rfl := Option.some.inj hnested
    exact ⟨_, hstores⟩

namespace Holds

variable {defs : List TypeDefinition} {registry' : Registry τ}

/-- The schema of a registered name is one of a definition of that name. -/
theorem allows (h : Holds defs registry) {name : String} {schema : Schema τ}
    (hfind : registry.find? name = some schema) :
    ∃ definition ∈ defs, definition.name = name ∧ definition.Allows registry schema := by
  obtain ⟨definition, hmem, rfl⟩ := h.defined name schema hfind
  obtain ⟨found, hfound, hallows⟩ := h.described definition hmem
  obtain rfl := Option.some.inj (hfind.symm.trans hfound)
  exact ⟨definition, hmem, rfl, hallows⟩

/-- Two registries that hold the same types have the same names, and one definition describes what
they have under each. -/
theorem find?_cases (h : Holds defs registry) (h' : Holds defs registry') (name : String) :
    (registry.find? name = none ∧ registry'.find? name = none) ∨
      ∃ (definition : TypeDefinition) (schema schema' : Schema τ),
        registry.find? name = some schema ∧ registry'.find? name = some schema' ∧
        definition.Allows registry schema ∧ definition.Allows registry' schema' := by
  cases hfind : registry.find? name with
  | some schema =>
    obtain ⟨definition, hmem, rfl, hallows⟩ := h.allows hfind
    obtain ⟨schema', hfind', hallows'⟩ := h'.described definition hmem
    exact .inr ⟨definition, schema, schema', rfl, hfind', hallows, hallows'⟩
  | none =>
    refine .inl ⟨rfl, ?_⟩
    cases hfind' : registry'.find? name with
    | none => rfl
    | some schema' =>
      obtain ⟨definition, hmem, rfl, -⟩ := h'.allows hfind'
      obtain ⟨schema, hfound, -⟩ := h.described definition hmem
      exact absurd hfound (by simp [hfind])

/-- Keeping every type by name leaves the types as they are. -/
theorem byName (h : Holds defs registry) : Holds defs registry.byName where
  described definition hmem := by
    obtain ⟨schema, hfind, hallows⟩ := h.described definition hmem
    refine ⟨schema.byName, ?_, hallows.byName⟩
    rw [Registry.find?_byName, hfind]
    rfl
  defined name schema hfind := by
    rw [Registry.find?_byName] at hfind
    obtain ⟨found, hfound, -⟩ := Option.map_eq_some_iff.mp hfind
    exact h.defined name found hfound

/-- The registry by name keeps every type by name. -/
theorem keepsNames_byName (h : Holds defs registry) : registry.byName.KeepsNames := by
  intro name schema hfind field hfield nested hnested
  rw [Registry.find?_byName] at hfind
  obtain ⟨found, hfound, rfl⟩ := Option.map_eq_some_iff.mp hfind
  obtain ⟨definition, -, -, hallows⟩ := h.allows hfound
  rw [Schema.fields_byName] at hfield
  obtain ⟨original, hmem, rfl⟩ := List.mem_map.mp hfield
  obtain ⟨nestedOriginal, horiginal, rfl⟩ := Option.map_eq_some_iff.mp hnested
  obtain ⟨typeName, hstores⟩ := hallows.exists_stores hmem horiginal
  exact ⟨typeName, hstores.byName⟩

end Holds

/-! ## The registry that is built -/

/-- The field that a definition stands for is one that it allows. -/
theorem FieldOf.allows {defs : List TypeDefinition} {owner : String}
    {definition : FieldDefinition} {field : Field τ}
    (h : FieldOf defs registry owner definition field) : definition.Allows registry field := by
  cases h with
  | plain => exact .plain
  | named _ => exact .nested .named
  | resolved _ hfind => exact .nested (.resolved hfind)

/-- The registry of definitions holds their types. -/
theorem Holds.of_ofDefinitions {defs : List TypeDefinition}
    (h : Registry.ofDefinitions defs = .ok registry) : Holds defs registry := by
  have hnodup := nodup_of_ofDefinitions h
  obtain ⟨hfaithful, hcomplete⟩ := faithful_and_complete_of_ofDefinitions h
  constructor
  · intro definition hmem
    obtain ⟨schema, hfind, hof⟩ := hfaithful.find hnodup hcomplete hmem
    exact ⟨schema, hfind, hof.typeName, hof.supertype, hof.fields.imp fun _ _ => FieldOf.allows⟩
  · intro name schema hfind
    exact hfaithful.defines hfind

/-- No type refers to an office. -/
theorem not_leads_office {a : String} (ha : a ≠ "Office") : ¬ Leads mixedLoop a "Office" := by
  have hunreferenced : ∀ d ∈ mixedLoop, "Office" ∉ d.references := by decide
  generalize hlast : "Office" = last
  intro hleads
  induction hleads with
  | refl name => exact ha hlast.symm
  | step hmem href _ ih =>
    refine ih ?_ hlast
    rintro rfl
    exact hunreferenced _ hmem href

/-- An office holds the schema of its department, so not every type is kept by name. -/
theorem not_keepsNames_mixedLoop {registry : Registry Empty}
    (h : Registry.ofDefinitions mixedLoop = .ok registry) : ¬ registry.KeepsNames := by
  obtain ⟨hfaithful, hcomplete⟩ := faithful_and_complete_of_ofDefinitions h
  have hmem : ⟨"Office", none, [⟨"department", some "Department"⟩]⟩ ∈ mixedLoop := by decide
  obtain ⟨schema, hfind, hof⟩ := hfaithful.find (nodup_of_ofDefinitions h) hcomplete hmem
  obtain ⟨field, more, hfield, -, hfields⟩ := List.forall₂_cons_left_iff.mp hof.fields
  intro hkeeps
  have hnamed := hkeeps _ schema hfind field (hfields ▸ List.mem_cons_self)
  cases hfield with
  | named hback => exact not_leads_office (by decide) hback
  | resolved _ _ =>
    obtain ⟨typeName, heq⟩ := hnamed _ rfl
    cases heq

end FilterScope
