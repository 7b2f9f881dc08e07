import FilterScope.Proofs.Schema.Resolution
import FilterScope.Schema.Document

/-!
# Which definitions make a registry, and which registry they make

Definitions are refused for a name that is defined twice before anything else is looked at. Without
one, every type is resolved with what the others left behind, and the registry that comes out is
faithful and complete. Such a registry exists for resolvable definitions only, and there is one of
it at most, so neither the outcome nor the registry depends on the order of the definitions.
-/

namespace FilterScope

variable {τ : Type} {defs defs' : List TypeDefinition}

/-! ## Repeated names -/

/-- No repeated name is found if and only if the names are different, and none has been seen. -/
theorem firstRepeated?_eq_none_iff {seen names : List String} :
    firstRepeated? seen names = none ↔ names.Nodup ∧ ∀ name ∈ names, name ∉ seen := by
  induction names generalizing seen with
  | nil => simp [firstRepeated?]
  | cons name names ih =>
    rw [firstRepeated?]
    split
    · next hseen => simp [hseen]
    · next hseen =>
      rw [ih, List.nodup_cons]
      grind

/-- The name that is reported is the first one that has come before. -/
theorem eq_append_of_firstRepeated? {seen names : List String} {name : String}
    (h : firstRepeated? seen names = some name) :
    ∃ before after, names = before ++ name :: after ∧ before.Nodup ∧
      (∀ other ∈ before, other ∉ seen) ∧ (name ∈ seen ∨ name ∈ before) := by
  induction names generalizing seen with
  | nil => cases h
  | cons first names ih =>
    rw [firstRepeated?] at h
    split at h
    · next hseen =>
      obtain rfl := Option.some.inj h
      exact ⟨[], names, rfl, List.nodup_nil, nofun, .inl hseen⟩
    · next hseen =>
      obtain ⟨before, after, rfl, hnodup, hfresh, hmem⟩ := ih h
      refine ⟨first :: before, after, rfl, ?_, ?_, ?_⟩
      · refine List.nodup_cons.mpr ⟨fun hin => ?_, hnodup⟩
        exact hfresh first hin List.mem_cons_self
      · intro other hother
        rcases List.mem_cons.mp hother with rfl | hother
        · exact hseen
        · exact fun hin => hfresh other hother (List.mem_cons_of_mem _ hin)
      · rcases hmem with hin | hin
        · rcases List.mem_cons.mp hin with rfl | hin
          · exact .inr List.mem_cons_self
          · exact .inl hin
        · exact .inr (List.mem_cons_of_mem _ hin)

/-! ## Resolving all definitions -/

/-- Resolving the definitions in turn gives each of them its schema, or fails with a real fault. -/
theorem resolveAll_yields (hnodup : (defs.map (·.name)).Nodup)
    (pending : List { definition // definition ∈ defs }) {built : Registry τ}
    (hbuilt : Faithful defs built) :
    Yields (DefinitionFault.Traced defs)
      (fun registry => Faithful defs registry ∧ Within built registry ∧
        ∀ definition ∈ pending, ∃ schema, registry.find? definition.val.name = some schema)
      (resolveAll defs pending built) := by
  induction pending generalizing built with
  | nil => exact ⟨hbuilt, fun _ _ hfind => hfind, nofun⟩
  | cons definition more ih =>
    rw [resolveAll]
    refine Yields.bind (resolve_resolves hnodup definition [] (.start _) hbuilt) ?_
    rintro ⟨schema, built'⟩ ⟨hadvances, hfind⟩
    refine (ih hadvances.faithful).imp fun registry ⟨hfaithful, hwithin, hmore⟩ => ?_
    refine ⟨hfaithful, fun _ _ h => hwithin (hadvances.kept h), fun other hother => ?_⟩
    rcases List.mem_cons.mp hother with rfl | hother
    · exact ⟨schema, hwithin hfind⟩
    · exact hmore other hother

/-- Without repeated names, definitions make a registry that is faithful and complete, or have a
real fault. -/
theorem ofDefinitions_yields (hnodup : (defs.map (·.name)).Nodup) :
    Yields (DefinitionFault.Traced defs)
      (fun registry : Registry τ => Faithful defs registry ∧ Complete defs registry)
      (Registry.ofDefinitions defs) := by
  have hnone : firstRepeated? [] (defs.map (·.name)) = none :=
    firstRepeated?_eq_none_iff.mpr ⟨hnodup, fun _ _ => List.not_mem_nil⟩
  rw [Registry.ofDefinitions, hnone]
  refine (resolveAll_yields hnodup defs.attach .empty).imp ?_
  rintro registry ⟨hfaithful, _, hall⟩
  exact ⟨hfaithful, fun definition hmem => hall ⟨definition, hmem⟩ (List.mem_attach defs _)⟩

/-- Definitions that make a registry have no repeated names. -/
theorem nodup_of_ofDefinitions {registry : Registry τ}
    (h : Registry.ofDefinitions defs = .ok registry) : (defs.map (·.name)).Nodup := by
  rw [Registry.ofDefinitions] at h
  split at h
  · cases h
  · next hnone => exact (firstRepeated?_eq_none_iff.mp hnone).1

/-- A registry that is given has the schemas of the definitions, and all of them. -/
theorem faithful_and_complete_of_ofDefinitions {registry : Registry τ}
    (h : Registry.ofDefinitions defs = .ok registry) :
    Faithful defs registry ∧ Complete defs registry :=
  (ofDefinitions_yields (nodup_of_ofDefinitions h)).of_ok h

/-- A fault is one of the definitions, and a loop comes with its path. -/
theorem traced_of_ofDefinitions (hnodup : (defs.map (·.name)).Nodup) {fault : DefinitionFault}
    (h : (Registry.ofDefinitions defs : Except DefinitionFault (Registry τ)) = .error fault) :
    fault.Traced defs :=
  (ofDefinitions_yields hnodup).of_error h

/-- Definitions that can be resolved have no real fault. -/
theorem DefinitionFault.Real.not_resolvable {fault : DefinitionFault} (h : fault.Real defs) :
    ¬ Resolvable defs := by
  intro hresolvable
  cases h with
  | unknownSupertype hextends hnone => exact hnone (hresolvable.supertypes hextends)
  | unknownNestedType hmem hfield hnone =>
    exact hnone (hresolvable.nested ⟨_, hmem, rfl, _, hfield, rfl⟩)
  | cyclicReference hloops => exact hresolvable.acyclic hloops

/-- Definitions without repeated names make a registry if and only if they can be resolved. -/
theorem exists_ofDefinitions_iff (hnodup : (defs.map (·.name)).Nodup) :
    (∃ registry : Registry τ, Registry.ofDefinitions defs = .ok registry) ↔ Resolvable defs := by
  constructor
  · rintro ⟨registry, h⟩
    obtain ⟨hfaithful, hcomplete⟩ := faithful_and_complete_of_ofDefinitions h
    exact hfaithful.resolvable hnodup hcomplete
  · intro hresolvable
    cases h : (Registry.ofDefinitions defs : Except DefinitionFault (Registry τ)) with
    | ok registry => exact ⟨registry, rfl⟩
    | error fault => exact absurd hresolvable (traced_of_ofDefinitions hnodup h).real.not_resolvable

/-- The registered names are the defined ones. -/
theorem mem_typeNames_iff {registry : Registry τ} (hfaithful : Faithful defs registry)
    (hcomplete : Complete defs registry) {name : String} :
    name ∈ registry.typeNames ↔ Defines defs name := by
  rw [Registry.mem_typeNames, Option.isSome_iff_exists]
  constructor
  · rintro ⟨schema, hfind⟩
    exact hfaithful.defines hfind
  · rintro ⟨definition, hmem, rfl⟩
    exact hcomplete definition hmem

/-- The order of definitions makes no difference to the registry. -/
theorem ofDefinitions_perm {registry : Registry τ} (h : Registry.ofDefinitions defs = .ok registry)
    (hperm : defs'.Perm defs) : Registry.ofDefinitions defs' = .ok registry := by
  have hnodup' : (defs'.map (·.name)).Nodup :=
    (hperm.map _).nodup_iff.mpr (nodup_of_ofDefinitions h)
  obtain ⟨hfaithful, hcomplete⟩ := faithful_and_complete_of_ofDefinitions h
  have hfaithful' : Faithful defs' registry := hfaithful.congr fun _ => hperm.mem_iff.symm
  have hcomplete' : Complete defs' registry := fun d hd => hcomplete d (hperm.mem_iff.mp hd)
  -- The registry shows that the definitions make one in the other order too, and there is only one.
  have hexists : ∃ registry' : Registry τ, Registry.ofDefinitions defs' = .ok registry' :=
    (exists_ofDefinitions_iff hnodup').mpr (hfaithful'.resolvable hnodup' hcomplete')
  obtain ⟨registry', h'⟩ := hexists
  obtain ⟨hother, hotherComplete⟩ := faithful_and_complete_of_ofDefinitions h'
  rw [h', hother.unique hnodup' hotherComplete hfaithful' hcomplete']

/-- A name that is defined twice is reported, whatever else is wrong: the first that comes again. -/
theorem ofDefinitions_eq_duplicateType (hrepeated : ¬ (defs.map (·.name)).Nodup) :
    ∃ before definition after, defs = before ++ definition :: after ∧
      (before.map (·.name)).Nodup ∧ definition.name ∈ before.map (·.name) ∧
      (Registry.ofDefinitions defs : Except DefinitionFault (Registry τ)) =
        .error (.duplicateType definition.name) := by
  rw [Registry.ofDefinitions]
  cases hfirst : firstRepeated? [] (defs.map (·.name)) with
  | none => exact absurd (firstRepeated?_eq_none_iff.mp hfirst).1 hrepeated
  | some name =>
    obtain ⟨before, after, hnames, hnodup, _, hmem⟩ := eq_append_of_firstRepeated? hfirst
    obtain ⟨defs₁, defs₂, rfl, rfl, hrest⟩ := List.map_eq_append_iff.mp hnames
    obtain ⟨definition, defs₃, rfl, rfl, rfl⟩ := List.map_eq_cons_iff.mp hrest
    rcases hmem with hmem | hmem
    · cases hmem
    · exact ⟨defs₁, definition, defs₃, rfl, hnodup, hmem, rfl⟩

/-! ## The outcome for all definitions -/

/-- A document whose definitions can be read has their registry, or their fault. -/
theorem ofDocument_eq {text : String} (hread : readDefinitions text = .ok defs) :
    (Registry.ofDocument text : Except LoadFault (Registry τ)) =
      (Registry.ofDefinitions defs).mapError .invalid := by
  rw [Registry.ofDocument, hread]
  dsimp only
  cases (Registry.ofDefinitions defs : Except DefinitionFault (Registry τ)) with
  | error fault => rfl
  | ok registry => rfl

/-- **What becomes of definitions.** If a name is defined twice, the first definition whose name has
come before is reported. Otherwise there is a registry if and only if every reference is to a
defined type and supertypes do not loop, and whatever is reported is a real fault. Loops of
references that pass through a nested type do no harm. A document comes to what its definitions
come to. -/
theorem ofDefinitions_outcome (defs : List TypeDefinition) :
    (¬ (defs.map (·.name)).Nodup →
      ∃ before definition after, defs = before ++ definition :: after ∧
        (before.map (·.name)).Nodup ∧ definition.name ∈ before.map (·.name) ∧
        (Registry.ofDefinitions defs : Except DefinitionFault (Registry τ)) =
          .error (.duplicateType definition.name)) ∧
    ((defs.map (·.name)).Nodup →
      ((∃ registry : Registry τ, Registry.ofDefinitions defs = .ok registry) ↔ Resolvable defs) ∧
      ∀ fault, (Registry.ofDefinitions defs : Except DefinitionFault (Registry τ)) = .error fault →
        fault.Real defs) ∧
    ∀ text, readDefinitions text = .ok defs →
      (Registry.ofDocument text : Except LoadFault (Registry τ)) =
        (Registry.ofDefinitions defs).mapError .invalid := by
  refine ⟨ofDefinitions_eq_duplicateType, fun hnodup => ?_, fun text hread => ofDocument_eq hread⟩
  exact ⟨exists_ofDefinitions_iff hnodup, fun fault h => (traced_of_ofDefinitions hnodup h).real⟩

/-- Types that nest themselves and each other, one of which extends another. -/
def mixedLoop : List TypeDefinition :=
  [⟨"Person", none, [⟨"firstname", none⟩, ⟨"manager", some "Person"⟩]⟩,
   ⟨"Employee", some "Person", [⟨"department", some "Department"⟩]⟩,
   ⟨"Department", none, [⟨"code", none⟩, ⟨"head", some "Employee"⟩]⟩,
   ⟨"Office", none, [⟨"department", some "Department"⟩]⟩]

theorem eq_of_extends_mixedLoop {a b : String} (h : Extends mixedLoop a b) :
    a = "Employee" ∧ b = "Person" := by
  obtain ⟨d, hd, rfl, hsupertype⟩ := h
  simp only [mixedLoop, List.mem_cons, List.not_mem_nil, or_false] at hd
  rcases hd with rfl | rfl | rfl | rfl <;> simp_all

theorem mixedLoop_resolvable : Resolvable mixedLoop where
  supertypes h := by
    rw [(eq_of_extends_mixedLoop h).2]
    exact ⟨_, List.mem_cons_self, rfl⟩
  nested h := by
    obtain ⟨d, hd, _, field, hfield, hnested⟩ := h
    have hdefined : ∀ d ∈ mixedLoop, ∀ field ∈ d.fields, ∀ nested ∈ field.nested,
        nested ∈ mixedLoop.map (·.name) := by decide
    exact List.mem_map.mp (hdefined d hd field hfield _ hnested)
  acyclic := by
    rintro ⟨name, hloop⟩
    obtain ⟨_, hfirst, _⟩ := Relation.TransGen.head'_iff.mp hloop
    obtain ⟨_, _, hlast⟩ := Relation.TransGen.tail'_iff.mp hloop
    have hname := (eq_of_extends_mixedLoop hfirst).1.symm.trans (eq_of_extends_mixedLoop hlast).2
    exact absurd hname (by decide)

theorem ofDefinitions_outcome_mixedLoop :
    (∃ registry : Registry Empty, Registry.ofDefinitions mixedLoop = .ok registry) ∧
      (Registry.ofDefinitions [⟨"A", none, []⟩, ⟨"A", some "B", []⟩] :
        Except DefinitionFault (Registry Empty)) = .error (.duplicateType "A") := by
  constructor
  · have hnodup : (mixedLoop.map (·.name)).Nodup := by decide
    exact ((ofDefinitions_outcome mixedLoop).2.1 hnodup).1.mpr mixedLoop_resolvable
  · obtain ⟨before, definition, after, hdefs, _, _, hresult⟩ :=
      (ofDefinitions_outcome [⟨"A", none, []⟩, ⟨"A", some "B", []⟩]).1 (by decide)
    have hmem : definition ∈ before ++ definition :: after := by simp
    rw [← hdefs] at hmem
    have hname : definition.name = "A" := by
      simp only [List.mem_cons, List.not_mem_nil, or_false] at hmem
      rcases hmem with rfl | rfl <;> rfl
    rw [hresult, hname]

/-- **What the registry of definitions holds.** It is the same for every order of the definitions,
and for every document that lists them. Its names are the defined ones, under each of them is the
schema that the definition stands for, and every type that is kept by name, at whatever depth, is
registered. -/
theorem ofDefinitions_describes {registry : Registry τ}
    (h : Registry.ofDefinitions defs = .ok registry) :
    (∀ defs', defs'.Perm defs → Registry.ofDefinitions defs' = .ok registry ∧
      ∀ text, readDefinitions text = .ok defs' → Registry.ofDocument text = .ok registry) ∧
    (∀ name, name ∈ registry.typeNames ↔ Defines defs name) ∧
    (∀ definition ∈ defs, ∃ schema, registry.find? definition.name = some schema ∧
      SchemaOf defs registry definition schema) ∧
    (∀ name schema typeName, registry.find? name = some schema → schema.Mentions typeName →
      typeName ∈ registry.typeNames) := by
  obtain ⟨hfaithful, hcomplete⟩ := faithful_and_complete_of_ofDefinitions h
  refine ⟨fun defs' hperm => ⟨ofDefinitions_perm h hperm, fun text hread => ?_⟩, fun name => ?_,
    fun d hd => ?_, ?_⟩
  · rw [ofDocument_eq hread, ofDefinitions_perm h hperm]
    rfl
  · exact mem_typeNames_iff hfaithful hcomplete
  · exact hfaithful.find (nodup_of_ofDefinitions h) hcomplete hd
  · intro name schema typeName hfind hmentions
    rw [mem_typeNames_iff hfaithful hcomplete]
    exact hfaithful.defines_of_mentions hfind hmentions

theorem ofDefinitions_describes_mixedLoop :
    ∃ registry : Registry Empty, Registry.ofDefinitions mixedLoop = .ok registry ∧
      Registry.ofDefinitions mixedLoop.reverse = .ok registry ∧
      "Office" ∈ registry.typeNames ∧ "Desk" ∉ registry.typeNames := by
  have hexists : ∃ registry : Registry Empty, Registry.ofDefinitions mixedLoop = .ok registry :=
    (exists_ofDefinitions_iff (by decide)).mpr mixedLoop_resolvable
  obtain ⟨registry, h⟩ := hexists
  obtain ⟨hperm, hnames, _, _⟩ := ofDefinitions_describes h
  refine ⟨registry, h, (hperm _ (List.reverse_perm mixedLoop)).1, ?_, ?_⟩
  · rw [hnames]
    simp [Defines, mixedLoop]
  · rw [hnames]
    simp [Defines, mixedLoop]

end FilterScope
