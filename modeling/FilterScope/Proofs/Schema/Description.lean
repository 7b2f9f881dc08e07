import Mathlib.Data.List.Forall2
import FilterScope.Proofs.Schema.References
import FilterScope.Schema.Registry

/-!
# The registry that definitions stand for

What a registry should hold is said without an order of building it: `SchemaOf` relates a
definition to its schema, and takes the schemas of other types from the registry itself. A registry
is **faithful** if every schema in it is the schema of a definition, and **complete** if every
definition has a schema in it.

The two fix the registry (`Faithful.unique`): a schema is larger than each schema that is a part of
it, so two faithful registries that agree on all smaller schemas agree on it too. They also rule out
loops of supertypes, along which schemas would shrink for ever (`Faithful.resolvable`).
-/

namespace FilterScope

open Relation (TransGen)

variable {τ : Type}

/-! ## Lists that correspond entry by entry -/

theorem forall₂_of_mem {α β : Type} {R S : α → β → Prop} {as : List α} {bs : List β}
    (h : List.Forall₂ R as bs) (himp : ∀ a, ∀ b ∈ bs, R a b → S a b) : List.Forall₂ S as bs := by
  induction h with
  | nil => exact .nil
  | cons hhead _ ih =>
    refine .cons (himp _ _ List.mem_cons_self hhead) (ih fun a b hb => ?_)
    exact himp a b (List.mem_cons_of_mem _ hb)

theorem exists_of_forall₂ {α β : Type} {R : α → β → Prop} {as : List α} {bs : List β}
    (h : List.Forall₂ R as bs) {a : α} (ha : a ∈ as) : ∃ b, R a b := by
  induction h with
  | nil => cases ha
  | cons hhead _ ih =>
    rcases List.mem_cons.mp ha with rfl | ha
    · exact ⟨_, hhead⟩
    · exact ih ha

/-! ## Parts of schemas -/

namespace Schema

/-- A schema is held inside another, as its supertype or as the type that a field nests. -/
inductive IsPart : Schema τ → Schema τ → Prop where
  /-- the supertype -/
  | supertype {part whole : Schema τ} (h : whole.supertype = some part) : IsPart part whole
  /-- the schema of a nested object -/
  | nested {part whole : Schema τ} {field : Field τ} (hmem : field ∈ whole.fields)
      (h : field.nested = some (.resolved part)) : IsPart part whole

/-- A schema refers to a type by name, itself or in a part of it at any depth. -/
inductive Mentions (typeName : String) : Schema τ → Prop where
  /-- the type of one of its fields -/
  | own {schema : Schema τ} {field : Field τ} (hmem : field ∈ schema.fields)
      (h : field.nested = some (.named typeName)) : Mentions typeName schema
  /-- a mention in a part -/
  | inside {part whole : Schema τ} (hpart : part.IsPart whole) (h : Mentions typeName part) :
      Mentions typeName whole

/-- A part is smaller than the whole. -/
theorem IsPart.sizeOf_lt {part whole : Schema τ} (h : part.IsPart whole) :
    sizeOf part < sizeOf whole := by
  cases h with
  | supertype h =>
    obtain ⟨typeName, fields, supertype⟩ := whole
    obtain rfl : supertype = some part := h
    simp only [Schema.mk.sizeOf_spec, Option.some.sizeOf_spec]
    omega
  | nested hmem h =>
    rename_i field
    have hfield := List.sizeOf_lt_of_mem hmem
    obtain ⟨typeName, fields, supertype⟩ := whole
    obtain ⟨name, nested⟩ := field
    obtain rfl : nested = some (.resolved part) := h
    simp only [Schema.mk.sizeOf_spec, Field.mk.sizeOf_spec, Option.some.sizeOf_spec,
      Nested.resolved.sizeOf_spec] at hfield ⊢
    omega

end Schema

/-! ## What a definition stands for -/

/-- The supertype that a definition stands for, where the schemas of types are those of a
registry. -/
inductive SupertypeOf (registry : Registry τ) : Option String → Option (Schema τ) → Prop where
  /-- nothing is extended -/
  | absent : SupertypeOf registry none none
  /-- the schema of the type that is extended -/
  | found {name : String} {schema : Schema τ} (hfind : registry.find? name = some schema) :
      SupertypeOf registry (some name) (some schema)

/-- The field that a field definition of a type stands for, where the schemas of types are those of
a registry. -/
inductive FieldOf (defs : List TypeDefinition) (registry : Registry τ) (owner : String) :
    FieldDefinition → Field τ → Prop where
  /-- a field that nests no type is plain -/
  | plain {name : String} : FieldOf defs registry owner ⟨name, none⟩ (.plain name)
  /-- a type that leads back to the owner is kept by name -/
  | named {name nested : String} (hback : Leads defs nested owner) :
      FieldOf defs registry owner ⟨name, some nested⟩ (.named name nested)
  /-- any other type is held as its schema -/
  | resolved {name nested : String} {schema : Schema τ} (hnot : ¬ Leads defs nested owner)
      (hfind : registry.find? nested = some schema) :
      FieldOf defs registry owner ⟨name, some nested⟩ (.resolved name schema)

/-- The schema that a definition stands for, where the schemas of other types are those of a
registry. -/
structure SchemaOf (defs : List TypeDefinition) (registry : Registry τ)
    (definition : TypeDefinition) (schema : Schema τ) : Prop where
  /-- the defined name -/
  typeName : schema.typeName = definition.name
  /-- the schema of the type that is extended, if one is -/
  supertype : SupertypeOf registry definition.supertype schema.supertype
  /-- the declared fields, in order -/
  fields : List.Forall₂ (FieldOf defs registry definition.name) definition.fields schema.fields

/-- Every registered schema is the one that a definition stands for. -/
def Faithful (defs : List TypeDefinition) (registry : Registry τ) : Prop :=
  ∀ ⦃name schema⦄, registry.find? name = some schema →
    ∃ definition ∈ defs, definition.name = name ∧ SchemaOf defs registry definition schema

/-- Every definition has a registered schema. -/
def Complete (defs : List TypeDefinition) (registry : Registry τ) : Prop :=
  ∀ definition ∈ defs, ∃ schema, registry.find? definition.name = some schema

/-- Every schema of one registry is registered under the same name in the other. -/
def Within (registry registry' : Registry τ) : Prop :=
  ∀ ⦃name schema⦄, registry.find? name = some schema → registry'.find? name = some schema

variable {defs defs' : List TypeDefinition} {registry registry' : Registry τ}

/-- Registries within each other are one. -/
theorem Within.antisymm (h : Within registry registry') (h' : Within registry' registry) :
    registry = registry' := by
  refine Registry.ext_find? fun name => ?_
  cases hfind : registry.find? name with
  | some schema => exact (h hfind).symm
  | none =>
    cases hfind' : registry'.find? name with
    | some schema => exact absurd (h' hfind') (by simp [hfind])
    | none => rfl

/-! ## What a registry must hold for a part -/

theorem SupertypeOf.exists_found {name : String} {schema? : Option (Schema τ)}
    (h : SupertypeOf registry (some name) schema?) :
    ∃ schema, schema? = some schema ∧ registry.find? name = some schema := by
  cases h with
  | found hfind => exact ⟨_, rfl, hfind⟩

theorem SupertypeOf.exists_name {supertype : Option String} {schema : Schema τ}
    (h : SupertypeOf registry supertype (some schema)) :
    ∃ name, registry.find? name = some schema := by
  cases h with
  | found hfind => exact ⟨_, hfind⟩

theorem FieldOf.exists_name {owner : String} {definition : FieldDefinition} {field : Field τ}
    {schema : Schema τ} (h : FieldOf defs registry owner definition field)
    (hresolved : field.nested = some (.resolved schema)) :
    ∃ name, registry.find? name = some schema := by
  cases h with
  | plain => cases hresolved
  | named _ => cases hresolved
  | resolved _ hfind =>
    obtain rfl := Nested.resolved.inj (Option.some.inj hresolved)
    exact ⟨_, hfind⟩

/-- A type that a field keeps by name leads back to the type of the field. -/
theorem FieldOf.leads_back {owner typeName : String} {definition : FieldDefinition}
    {field : Field τ} (h : FieldOf defs registry owner definition field)
    (hnamed : field.nested = some (.named typeName)) : Leads defs typeName owner := by
  cases h with
  | plain => cases hnamed
  | resolved _ _ => cases hnamed
  | named hback =>
    obtain rfl := Nested.named.inj (Option.some.inj hnamed)
    exact hback

/-! ## Other definitions and other registries

What a definition stands for rests on the chains of references and on the registered schemas of
the parts, and on nothing else. -/

theorem SupertypeOf.transfer {supertype : Option String} {schema? : Option (Schema τ)}
    (h : SupertypeOf registry supertype schema?)
    (hparts : ∀ name part, schema? = some part → registry.find? name = some part →
      registry'.find? name = some part) :
    SupertypeOf registry' supertype schema? := by
  cases h with
  | absent => exact .absent
  | found hfind => exact .found (hparts _ _ rfl hfind)

theorem FieldOf.transfer {owner : String} {definition : FieldDefinition} {field : Field τ}
    (h : FieldOf defs registry owner definition field)
    (hleads : ∀ a b, Leads defs a b ↔ Leads defs' a b)
    (hparts : ∀ name part, field.nested = some (.resolved part) →
      registry.find? name = some part → registry'.find? name = some part) :
    FieldOf defs' registry' owner definition field := by
  cases h with
  | plain => exact .plain
  | named hback => exact .named ((hleads _ _).mp hback)
  | resolved hnot hfind =>
    exact .resolved (fun hback => hnot ((hleads _ _).mpr hback)) (hparts _ _ rfl hfind)

/-- A schema stays what it was under the same chains, where its parts are registered. -/
theorem SchemaOf.transfer {definition : TypeDefinition} {schema : Schema τ}
    (h : SchemaOf defs registry definition schema)
    (hleads : ∀ a b, Leads defs a b ↔ Leads defs' a b)
    (hparts : ∀ name part, part.IsPart schema → registry.find? name = some part →
      registry'.find? name = some part) :
    SchemaOf defs' registry' definition schema where
  typeName := h.typeName
  supertype := h.supertype.transfer fun name part heq => hparts name part (.supertype heq)
  fields := forall₂_of_mem h.fields fun _ _ hfield hof =>
    hof.transfer hleads fun name part heq => hparts name part (.nested hfield heq)

theorem FieldOf.mono {owner : String} {definition : FieldDefinition} {field : Field τ}
    (h : FieldOf defs registry owner definition field) (hwithin : Within registry registry') :
    FieldOf defs registry' owner definition field :=
  h.transfer (fun _ _ => Iff.rfl) fun _ _ _ hfind => hwithin hfind

/-- A registry that holds more gives a definition no other schema. -/
theorem SchemaOf.mono {definition : TypeDefinition} {schema : Schema τ}
    (h : SchemaOf defs registry definition schema) (hwithin : Within registry registry') :
    SchemaOf defs registry' definition schema :=
  h.transfer (fun _ _ => Iff.rfl) fun _ _ _ hfind => hwithin hfind

/-- Whether a registry is faithful does not depend on the order of the definitions. -/
theorem Faithful.congr (h : Faithful defs registry)
    (hdefs : ∀ definition, definition ∈ defs ↔ definition ∈ defs') : Faithful defs' registry := by
  have hleads : ∀ a b, Leads defs a b ↔ Leads defs' a b := fun a b =>
    ⟨.mono fun d => (hdefs d).mp, .mono fun d => (hdefs d).mpr⟩
  intro name schema hfind
  obtain ⟨d, hd, hname, hof⟩ := h hfind
  exact ⟨d, (hdefs d).mp hd, hname, hof.transfer hleads fun _ _ _ hpart => hpart⟩

/-! ## There is one such registry -/

theorem SupertypeOf.unique {supertype : Option String} {schema? schema?' : Option (Schema τ)}
    (h : SupertypeOf registry supertype schema?) (h' : SupertypeOf registry supertype schema?') :
    schema? = schema?' := by
  cases h with
  | absent =>
    cases h' with
    | absent => rfl
  | found hfind =>
    cases h' with
    | found hfind' => rw [← hfind, ← hfind']

theorem FieldOf.unique {owner : String} {definition : FieldDefinition} {field field' : Field τ}
    (h : FieldOf defs registry owner definition field)
    (h' : FieldOf defs registry owner definition field') : field = field' := by
  cases h with
  | plain =>
    cases h' with
    | plain => rfl
  | named hback =>
    cases h' with
    | named _ => rfl
    | resolved hnot _ => exact absurd hback hnot
  | resolved hnot hfind =>
    cases h' with
    | named hback => exact absurd hback hnot
    | resolved _ hfind' => rw [Option.some.inj (hfind.symm.trans hfind')]

/-- A definition stands for one schema at most. -/
theorem SchemaOf.unique {definition : TypeDefinition} {schema schema' : Schema τ}
    (h : SchemaOf defs registry definition schema)
    (h' : SchemaOf defs registry definition schema') : schema = schema' := by
  have hname : schema.typeName = schema'.typeName := h.typeName.trans h'.typeName.symm
  have hsupertype := h.supertype.unique h'.supertype
  have hunique : Relator.RightUnique (FieldOf defs registry definition.name) :=
    fun _ _ _ => FieldOf.unique
  have hfields := hunique.forall₂ h.fields h'.fields
  obtain ⟨typeName, fields, supertype⟩ := schema
  obtain ⟨typeName', fields', supertype'⟩ := schema'
  subst hname hsupertype hfields
  rfl

/-- Every schema of a faithful registry is also in a faithful and complete one. -/
theorem Faithful.within (hnodup : (defs.map (·.name)).Nodup) (h : Faithful defs registry)
    (h' : Faithful defs registry') (hcomplete : Complete defs registry') :
    Within registry registry' := by
  intro name schema hfind
  -- Parts are smaller, so both registries hold the same schemas for them.
  induction hsize : sizeOf schema using Nat.strongRecOn generalizing name schema with
  | ind size ih =>
    obtain ⟨d, hd, rfl, hof⟩ := h hfind
    obtain ⟨found, hfound⟩ := hcomplete d hd
    obtain ⟨d', hd', hname, hof'⟩ := h' hfound
    obtain rfl := eq_of_name_eq hnodup hd' hd hname
    have hsame : SchemaOf defs registry' d' schema :=
      hof.transfer (fun _ _ => Iff.rfl) fun name part hpart hfind =>
        ih (sizeOf part) (hsize ▸ hpart.sizeOf_lt) hfind rfl
    rw [hfound, hof'.unique hsame]

/-- Registries that are faithful and complete are the same. -/
theorem Faithful.unique (hnodup : (defs.map (·.name)).Nodup) (h : Faithful defs registry)
    (hcomplete : Complete defs registry) (h' : Faithful defs registry')
    (hcomplete' : Complete defs registry') : registry = registry' :=
  (h.within hnodup h' hcomplete').antisymm (h'.within hnodup h hcomplete)

/-! ## What must hold of the definitions -/

theorem Faithful.empty : Faithful defs (∅ : Registry τ) := by
  intro name schema hfind
  rw [Registry.find?_empty] at hfind
  cases hfind

/-- The schema of a definition in a faithful and complete registry. -/
theorem Faithful.find (hnodup : (defs.map (·.name)).Nodup) (h : Faithful defs registry)
    (hcomplete : Complete defs registry) {definition : TypeDefinition} (hmem : definition ∈ defs) :
    ∃ schema, registry.find? definition.name = some schema ∧
      SchemaOf defs registry definition schema := by
  obtain ⟨schema, hfind⟩ := hcomplete definition hmem
  obtain ⟨d, hd, hname, hof⟩ := h hfind
  obtain rfl := eq_of_name_eq hnodup hd hmem hname
  exact ⟨schema, hfind, hof⟩

/-- A part of a registered schema is registered itself. -/
theorem Faithful.find_part (h : Faithful defs registry) {name : String} {whole part : Schema τ}
    (hfind : registry.find? name = some whole) (hpart : part.IsPart whole) :
    ∃ other, registry.find? other = some part := by
  obtain ⟨d, _, _, hof⟩ := h hfind
  cases hpart with
  | supertype heq =>
    have hsupertype := hof.supertype
    rw [heq] at hsupertype
    exact hsupertype.exists_name
  | nested hmem heq =>
    obtain ⟨definition, hfield⟩ := exists_of_forall₂ hof.fields.flip hmem
    exact hfield.exists_name heq

/-- A registered type is defined. -/
theorem Faithful.defines (h : Faithful defs registry) {name : String} {schema : Schema τ}
    (hfind : registry.find? name = some schema) : Defines defs name := by
  obtain ⟨d, hd, hname, _⟩ := h hfind
  exact ⟨d, hd, hname⟩

/-- The schema of a supertype is a part of the schema that extends it. -/
theorem Faithful.exists_isPart (hnodup : (defs.map (·.name)).Nodup) (h : Faithful defs registry)
    (hcomplete : Complete defs registry) {a b : String} (hextends : Extends defs a b) :
    ∃ whole part, registry.find? a = some whole ∧ registry.find? b = some part ∧
      part.IsPart whole := by
  obtain ⟨d, hd, rfl, hextended⟩ := hextends
  obtain ⟨whole, hwhole, hof⟩ := h.find hnodup hcomplete hd
  have hsupertype := hof.supertype
  rw [hextended] at hsupertype
  obtain ⟨part, hpart, hfind⟩ := hsupertype.exists_found
  exact ⟨whole, part, hwhole, hfind, .supertype hpart⟩

/-- A reference that is kept by name is one to a defined type, at any depth. -/
theorem Faithful.defines_of_mentions (h : Faithful defs registry) {name typeName : String}
    {schema : Schema τ} (hfind : registry.find? name = some schema)
    (hmentions : schema.Mentions typeName) : Defines defs typeName := by
  induction hmentions generalizing name with
  | own hmem heq =>
    obtain ⟨d, hd, _, hof⟩ := h hfind
    obtain ⟨definition, hfield⟩ := exists_of_forall₂ hof.fields.flip hmem
    exact (hfield.leads_back heq).defines ⟨d, hd, rfl⟩
  | inside hpart _ ih =>
    obtain ⟨other, hother⟩ := h.find_part hfind hpart
    exact ih hother

/-- Schemas shrink along a chain of supertypes. -/
theorem Faithful.sizeOf_lt (hnodup : (defs.map (·.name)).Nodup) (h : Faithful defs registry)
    (hcomplete : Complete defs registry) {a b : String} (hchain : TransGen (Extends defs) a b) :
    ∃ whole part, registry.find? a = some whole ∧ registry.find? b = some part ∧
      sizeOf part < sizeOf whole := by
  induction hchain with
  | single hextends =>
    obtain ⟨whole, part, hwhole, hpart, hisPart⟩ := h.exists_isPart hnodup hcomplete hextends
    exact ⟨whole, part, hwhole, hpart, hisPart.sizeOf_lt⟩
  | tail _ hextends ih =>
    obtain ⟨whole, middle, hwhole, hmiddle, hlt⟩ := ih
    obtain ⟨middle', part, hmiddle', hpart, hisPart⟩ := h.exists_isPart hnodup hcomplete hextends
    obtain rfl := Option.some.inj (hmiddle.symm.trans hmiddle')
    exact ⟨whole, part, hwhole, hpart, hisPart.sizeOf_lt.trans hlt⟩

/-- Where every definition has its schema, the types that are nested are defined. -/
theorem Faithful.defines_of_nests (hnodup : (defs.map (·.name)).Nodup) (h : Faithful defs registry)
    (hcomplete : Complete defs registry) {a b : String} (hnests : Nests defs a b) :
    Defines defs b := by
  obtain ⟨d, hd, rfl, ⟨name, nested⟩, hfield, rfl⟩ := hnests
  obtain ⟨schema, _, hof⟩ := h.find hnodup hcomplete hd
  obtain ⟨field, hfieldOf⟩ := exists_of_forall₂ hof.fields hfield
  cases hfieldOf with
  | named hback => exact hback.defines ⟨d, hd, rfl⟩
  | resolved _ hfind => exact h.defines hfind

/-- Only definitions that can be resolved have a faithful and complete registry. -/
theorem Faithful.resolvable (hnodup : (defs.map (·.name)).Nodup) (h : Faithful defs registry)
    (hcomplete : Complete defs registry) : Resolvable defs where
  supertypes hextends := by
    obtain ⟨_, _, _, hpart, _⟩ := h.exists_isPart hnodup hcomplete hextends
    exact h.defines hpart
  nested hnests := h.defines_of_nests hnodup hcomplete hnests
  acyclic := by
    -- Around a loop, the schema of a type would be smaller than itself.
    rintro ⟨name, hloop⟩
    obtain ⟨whole, part, hwhole, hpart, hlt⟩ := h.sizeOf_lt hnodup hcomplete hloop
    obtain rfl := Option.some.inj (hwhole.symm.trans hpart)
    exact absurd hlt (Nat.lt_irrefl _)

end FilterScope
