import FilterScope.Proofs.Schema.Description
import FilterScope.Proofs.Schema.Search
import FilterScope.Schema.Resolution

/-!
# Resolution builds the registry that definitions stand for

What resolution does is said once for each of its functions, for both of its outcomes: a value comes
with a registry that is still faithful to the definitions and that has only grown (`Advances`), and
an error is a real fault of the definitions (`DefinitionFault.Traced`). The functions call each
other, so the four statements are proved together.

* **The path** of the types that are begun is a chain of needs (`Reached`). A name that is reached
  while it is on the path closes a loop of needs, and such a loop consists of supertypes.
* **The registry** never gets a schema for a type that is begun, so the schema of a type is not
  there yet when it is finished, and putting it there changes no other.
-/

namespace FilterScope

open Relation (TransGen)

variable {τ : Type} {defs : List TypeDefinition}

/-! ## Conditions on both outcomes -/

/-- An error satisfies the one condition, and a value the other. -/
def Yields {ε α : Type} (Fails : ε → Prop) (Gives : α → Prop) : Except ε α → Prop
  | .error fault => Fails fault
  | .ok value => Gives value

/-- What follows a step only has to be looked at for the values that the step gives. -/
theorem Yields.bind {ε α β : Type} {Fails : ε → Prop} {Gives : α → Prop} {Gives' : β → Prop}
    {result : Except ε α} {next : α → Except ε β} (h : Yields Fails Gives result)
    (hnext : ∀ value, Gives value → Yields Fails Gives' (next value)) :
    Yields Fails Gives' (result >>= next) := by
  cases result with
  | error fault => exact h
  | ok value => exact hnext value h

theorem Yields.imp {ε α : Type} {Fails : ε → Prop} {Gives Gives' : α → Prop} {result : Except ε α}
    (h : Yields Fails Gives result) (himp : ∀ value, Gives value → Gives' value) :
    Yields Fails Gives' result := by
  cases result with
  | error fault => exact h
  | ok value => exact himp value h

theorem Yields.trivial {ε α : Type} (result : Except ε α) :
    Yields (fun _ => True) (fun _ => True) result := by
  cases result <;> exact True.intro

/-- Inversion for a result. -/
theorem Yields.of_ok {ε α : Type} {Fails : ε → Prop} {Gives : α → Prop} {result : Except ε α}
    (h : Yields Fails Gives result) {value : α} (hresult : result = .ok value) : Gives value := by
  rwa [hresult] at h

/-- Inversion for a fault. -/
theorem Yields.of_error {ε α : Type} {Fails : ε → Prop} {Gives : α → Prop} {result : Except ε α}
    (h : Yields Fails Gives result) {fault : ε} (hresult : result = .error fault) :
    Fails fault := by
  rwa [hresult] at h

/-! ## The path of the types that are begun -/

/-- A name is reached on a path of different types, each of which needs the next one and the last of
which needs the name. -/
structure Reached (defs : List TypeDefinition) (path : List String) (name : String) : Prop where
  /-- no type is begun twice -/
  distinct : path.Nodup
  /-- each type is begun because the one before it needs it -/
  chain : (path ++ [name]).IsChain (Needs defs)

/-- A definition on its turn is reached with nothing begun. -/
theorem Reached.start (name : String) : Reached defs [] name :=
  ⟨List.nodup_nil, .singleton name⟩

/-- A type that is begun reaches what it needs. -/
theorem Reached.next {path : List String} {name other : String} (h : Reached defs path name)
    (hpath : name ∉ path) (hneeds : Needs defs name other) :
    Reached defs (path ++ [name]) other := by
  constructor
  · refine h.distinct.append (List.nodup_singleton name) ?_
    rw [List.disjoint_singleton]
    exact hpath
  · rw [List.append_assoc, List.singleton_append, List.isChain_append_cons_cons]
    exact ⟨h.chain, hneeds, .singleton other⟩

/-- Each type on the path needs the name that is reached, itself or through others. -/
theorem Reached.transGen {path : List String} {name begun : String} (h : Reached defs path name)
    (hmem : begun ∈ path) : TransGen (Needs defs) begun name := by
  have hchain : (path ++ [name]).IsChain (TransGen (Needs defs)) :=
    h.chain.imp fun _ _ => .single
  rw [List.isChain_iff_pairwise, List.pairwise_append] at hchain
  exact hchain.2.2 begun hmem name List.mem_cons_self

/-! ## Faults -/

namespace DefinitionFault

/-- A fault is one of the definitions, where no name is defined twice. -/
inductive Real (defs : List TypeDefinition) : DefinitionFault → Prop where
  /-- the type extends the other, which is not defined -/
  | unknownSupertype {typeName supertype : String} (hextends : Extends defs typeName supertype)
      (hnone : ¬ Defines defs supertype) : Real defs (.unknownSupertype typeName supertype)
  /-- the field of the type nests the other, which is not defined -/
  | unknownNestedType {definition : TypeDefinition} {field nestedType : String}
      (hmem : definition ∈ defs) (hfield : ⟨field, some nestedType⟩ ∈ definition.fields)
      (hnone : ¬ Defines defs nestedType) :
      Real defs (.unknownNestedType definition.name field nestedType)
  /-- supertypes loop -/
  | cyclicReference {path : List String} (hloops : Loops defs) :
      Real defs (.cyclicReference path)

/-- A fault is real, and the path of a loop is one along which resolution needed the types. -/
structure Traced (defs : List TypeDefinition) (fault : DefinitionFault) : Prop where
  /-- the fault is one of the definitions -/
  real : fault.Real defs
  /-- the path ends with a name that was begun and is reached again -/
  path : ∀ path, fault = .cyclicReference path →
    ∃ begun name, path = begun ++ [name] ∧ name ∈ begun ∧ Reached defs begun name

theorem Traced.unknownSupertype {typeName supertype : String}
    (hextends : Extends defs typeName supertype) (hnone : ¬ Defines defs supertype) :
    Traced defs (.unknownSupertype typeName supertype) :=
  ⟨.unknownSupertype hextends hnone, nofun⟩

theorem Traced.unknownNestedType {definition : TypeDefinition} {field nestedType : String}
    (hmem : definition ∈ defs) (hfield : ⟨field, some nestedType⟩ ∈ definition.fields)
    (hnone : ¬ Defines defs nestedType) :
    Traced defs (.unknownNestedType definition.name field nestedType) :=
  ⟨.unknownNestedType hmem hfield hnone, nofun⟩

/-- A type that is reached while it is begun closes a loop. -/
theorem Traced.cyclicReference {path : List String} {name : String} (h : Reached defs path name)
    (hmem : name ∈ path) : Traced defs (.cyclicReference (path ++ [name])) where
  real := .cyclicReference (.of_needs (h.transGen hmem))
  path _ heq := by
    obtain rfl := DefinitionFault.cyclicReference.inj heq
    exact ⟨path, name, rfl, hmem, h⟩

end DefinitionFault

/-! ## Registries that grow -/

/-- What a step of resolution does not do to the registry, while the types of a path are begun. -/
structure Keeps (path : List String) (built built' : Registry τ) : Prop where
  /-- the schemas that were there still are -/
  kept : Within built built'
  /-- no type that is begun gets a schema -/
  begun : ∀ name ∈ path, built.find? name = none → built'.find? name = none

namespace Keeps

variable {path path' : List String} {built built' built'' : Registry τ}

theorem refl (path : List String) (built : Registry τ) : Keeps path built built :=
  ⟨fun _ _ hfind => hfind, fun _ _ hnone => hnone⟩

theorem trans (h : Keeps path built built') (h' : Keeps path built' built'') :
    Keeps path built built'' where
  kept _ _ hfind := h'.kept (h.kept hfind)
  begun name hmem hnone := h'.begun name hmem (h.begun name hmem hnone)

/-- A type that was begun last is finished: its schema goes into the registry, under a name under
which there is none to be replaced. -/
theorem insert {schema : Schema τ} (hnone : built.find? schema.typeName = none)
    (hpath : schema.typeName ∉ path) (h : Keeps (path ++ [schema.typeName]) built built') :
    Within built' (built'.insert schema) ∧ Keeps path built (built'.insert schema) := by
  have hnone' : built'.find? schema.typeName = none :=
    h.begun _ (List.mem_append_right _ List.mem_cons_self) hnone
  have hwithin : Within built' (built'.insert schema) := by
    intro name found hfind
    rw [Registry.find?_insert_of_ne, hfind]
    rintro rfl
    rw [hnone'] at hfind
    cases hfind
  refine ⟨hwithin, fun name found hfind => hwithin (h.kept hfind), fun name hmem hfree => ?_⟩
  rw [Registry.find?_insert_of_ne]
  · exact h.begun name (List.mem_append_left _ hmem) hfree
  · rintro rfl
    exact hpath hmem

end Keeps

/-- What a step of resolution does to the registry, while the types of a path are begun. -/
structure Advances (defs : List TypeDefinition) (path : List String)
    (built built' : Registry τ) : Prop extends Keeps path built built' where
  /-- the new schemas are those of definitions -/
  faithful : Faithful defs built'

namespace Advances

variable {path : List String} {built built' built'' : Registry τ}

theorem refl (h : Faithful defs built) : Advances defs path built built :=
  ⟨.refl path built, h⟩

theorem trans (h : Advances defs path built built') (h' : Advances defs path built' built'') :
    Advances defs path built built'' :=
  ⟨h.toKeeps.trans h'.toKeeps, h'.faithful⟩

/-- A type is finished: it leaves the path, and its schema goes into the registry. -/
theorem insert {definition : TypeDefinition} {schema : Schema τ} (hmem : definition ∈ defs)
    (hnone : built.find? definition.name = none) (hpath : definition.name ∉ path)
    (h : Advances defs (path ++ [definition.name]) built built')
    (hof : SchemaOf defs built' definition schema) :
    Advances defs path built (built'.insert schema) := by
  have hkeeps := h.toKeeps
  rw [← hof.typeName] at hnone hpath hkeeps
  obtain ⟨hwithin, hinsert⟩ := hkeeps.insert hnone hpath
  refine ⟨hinsert, fun name found hfind => ?_⟩
  rw [Registry.find?_insert] at hfind
  split at hfind
  · next hname =>
    obtain rfl := Option.some.inj hfind
    exact ⟨definition, hmem, hof.typeName.symm.trans hname, hof.mono hwithin⟩
  · obtain ⟨d, hd, hname, hof'⟩ := h.faithful hfind
    exact ⟨d, hd, hname, hof'.mono hwithin⟩

end Advances

/-! ## The functions of resolution -/

/-- What resolving a part of a definition comes to, while the types of a path are begun: what is
made of the part agrees with the registry that is left behind. -/
def Resolves {α : Type} (defs : List TypeDefinition) (path : List String) (built : Registry τ)
    (Agrees : α → Registry τ → Prop) : Except DefinitionFault (α × Registry τ) → Prop :=
  Yields (DefinitionFault.Traced defs) fun out =>
    Advances defs path built out.2 ∧ Agrees out.1 out.2

mutual

/-- A type is resolved to the schema that is then registered under its name. -/
theorem resolve_resolves (hnodup : (defs.map (·.name)).Nodup)
    (definition : { definition // definition ∈ defs }) (path : List String) {built : Registry τ}
    (hreached : Reached defs path definition.val.name) (hbuilt : Faithful defs built) :
    Resolves defs path built
      (fun schema built' => built'.find? definition.val.name = some schema)
      (resolve defs definition path built) := by
  rw [resolve]
  split
  · next schema hfind => exact ⟨.refl hbuilt, hfind⟩
  · next hnone =>
    split
    -- The type is begun already.
    · next hpath => exact .cyclicReference hreached hpath
    · next hpath =>
      have hshorter : unvisited defs (path ++ [definition.val.name]) < unvisited defs path :=
        unvisited_lt definition.property hpath (List.mem_append_right _ List.mem_cons_self)
          (List.subset_append_left _ _)
      refine Yields.bind
        (resolveSupertype_resolves hnodup definition.property path hpath hreached hbuilt) ?_
      rintro ⟨supertype, built₁⟩ ⟨hadvances₁, hsupertype⟩
      refine Yields.bind (resolveFields_resolves hnodup definition.property path hpath hreached
        definition.val.fields (List.Subset.refl _) hadvances₁.faithful) ?_
      rintro ⟨fields, built₂⟩ ⟨hadvances₂, hfields⟩
      have hof : SchemaOf defs built₂ definition.val ⟨definition.val.name, fields, supertype⟩ :=
        ⟨rfl, hsupertype.transfer fun _ _ _ hfind => hadvances₂.kept hfind, hfields⟩
      refine ⟨.insert definition.property hnone hpath (hadvances₁.trans hadvances₂) hof, ?_⟩
      exact (Registry.find?_insert _ _ _).trans (if_pos rfl)
termination_by (unvisited defs path, 0)
decreasing_by
  all_goals exact Prod.Lex.left _ _ (by assumption)

/-- The supertype of a type is resolved to what the type asks for. -/
theorem resolveSupertype_resolves (hnodup : (defs.map (·.name)).Nodup) {owner : TypeDefinition}
    (hmem : owner ∈ defs) (path : List String) {built : Registry τ} (hpath : owner.name ∉ path)
    (hreached : Reached defs path owner.name) (hbuilt : Faithful defs built) :
    Resolves defs (path ++ [owner.name]) built
      (fun supertype built' => SupertypeOf built' owner.supertype supertype)
      (resolveSupertype defs owner (path ++ [owner.name]) built) := by
  rw [resolveSupertype]
  split
  · next hsupertype => exact ⟨.refl hbuilt, hsupertype ▸ .absent⟩
  · next name hsupertype =>
    have hextends : Extends defs owner.name name := ⟨owner, hmem, rfl, hsupertype⟩
    split
    · next hnone => exact .unknownSupertype hextends (definition?_eq_none_iff.mp hnone)
    · next definition hdefinition =>
      have hname := name_of_definition? hdefinition
      have hnext := hreached.next hpath (.inl hextends)
      refine Yields.bind
        (resolve_resolves hnodup definition (path ++ [owner.name]) (hname ▸ hnext) hbuilt) ?_
      rintro ⟨schema, built'⟩ ⟨hadvances, hfind⟩
      rw [hname] at hfind
      exact ⟨hadvances, hsupertype ▸ .found hfind⟩
termination_by (unvisited defs (path ++ [owner.name]), 1)

/-- The fields of a type are resolved in order, each to what it stands for. -/
theorem resolveFields_resolves (hnodup : (defs.map (·.name)).Nodup) {owner : TypeDefinition}
    (hmem : owner ∈ defs) (path : List String) {built : Registry τ} (hpath : owner.name ∉ path)
    (hreached : Reached defs path owner.name) (fields : List FieldDefinition)
    (hfields : fields ⊆ owner.fields) (hbuilt : Faithful defs built) :
    Resolves defs (path ++ [owner.name]) built
      (fun read built' => List.Forall₂ (FieldOf defs built' owner.name) fields read)
      (resolveFields defs owner (path ++ [owner.name]) fields built) := by
  cases fields with
  | nil =>
    rw [resolveFields]
    exact ⟨.refl hbuilt, .nil⟩
  | cons field more =>
    rw [resolveFields]
    obtain ⟨hfield, hmore⟩ := List.cons_subset.mp hfields
    refine Yields.bind (resolveField_resolves hnodup hmem path hpath hreached hfield hbuilt) ?_
    rintro ⟨first, built₁⟩ ⟨hadvances₁, hfirst⟩
    refine Yields.bind (resolveFields_resolves hnodup hmem path hpath hreached more hmore
      hadvances₁.faithful) ?_
    rintro ⟨rest, built₂⟩ ⟨hadvances₂, hrest⟩
    exact ⟨hadvances₁.trans hadvances₂, .cons (hfirst.mono hadvances₂.kept) hrest⟩
termination_by (unvisited defs (path ++ [owner.name]), fields.length + 2)

/-- A field of a type is resolved to what it stands for. -/
theorem resolveField_resolves (hnodup : (defs.map (·.name)).Nodup) {owner : TypeDefinition}
    (hmem : owner ∈ defs) (path : List String) {built : Registry τ} (hpath : owner.name ∉ path)
    (hreached : Reached defs path owner.name) {field : FieldDefinition}
    (hfield : field ∈ owner.fields) (hbuilt : Faithful defs built) :
    Resolves defs (path ++ [owner.name]) built
      (fun read built' => FieldOf defs built' owner.name field read)
      (resolveField defs owner (path ++ [owner.name]) field built) := by
  obtain ⟨name, nested⟩ := field
  rw [resolveField]
  cases nested with
  | none => exact ⟨.refl hbuilt, .plain⟩
  | some nested =>
    have hnests : Nests defs owner.name nested := ⟨owner, hmem, rfl, _, hfield, rfl⟩
    dsimp only
    split
    · next hnone => exact .unknownNestedType hmem hfield (definition?_eq_none_iff.mp hnone)
    · next definition hdefinition =>
      split
      -- The type leads back to the owner, and is kept by name.
      · next hreaches =>
        exact ⟨.refl hbuilt, .named ((reaches_eq_true_iff hnodup).mp hreaches)⟩
      · next hreaches =>
        have hback : ¬ Leads defs nested owner.name := fun hback =>
          hreaches ((reaches_eq_true_iff hnodup).mpr hback)
        have hname := name_of_definition? hdefinition
        have hnext := hreached.next hpath (.inr ⟨hnests, hback⟩)
        refine Yields.bind
          (resolve_resolves hnodup definition (path ++ [owner.name]) (hname ▸ hnext) hbuilt) ?_
        rintro ⟨schema, built'⟩ ⟨hadvances, hfind⟩
        rw [hname] at hfind
        exact ⟨hadvances, .resolved hback hfind⟩
termination_by (unvisited defs (path ++ [owner.name]), 1)

end

end FilterScope
