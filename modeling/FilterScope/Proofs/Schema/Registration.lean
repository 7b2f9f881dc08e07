import FilterScope.Schema.Registry

/-!
# Registering types one after the other

A registry can be added to in three ways (`Registration`), and each of them registers one schema.
A run of them, from any registry, is looked at through `Registry.find?`:

* what is found under a name is the schema of that name that was registered last, and if there is
  none what was found at the start (`find?_run`);
* the registered names are those under which something is found, each listed once and in the order
  of their code points.
-/

namespace FilterScope

variable {τ : Type}

/-- One addition to a registry. -/
inductive Registration (τ : Type) where
  /-- a schema, in exchange for the one that it takes the place of -/
  | replace (schema : Schema τ)
  /-- a schema -/
  | insert (schema : Schema τ)
  /-- the schema of a type known in advance -/
  | insertTarget (target : τ)

namespace Registration

variable [Described τ]

/-- The schema that is registered. -/
def schema : Registration τ → Schema τ
  | .replace schema => schema
  | .insert schema => schema
  | .insertTarget target => Described.schema target

/-- The registry with the addition. -/
def apply (registry : Registry τ) : Registration τ → Registry τ
  | .replace schema => (registry.replace schema).2
  | .insert schema => registry.insert schema
  | .insertTarget target => registry.insertTarget target

/-- Every way of registering a schema puts it into the registry under its name. -/
theorem apply_eq_insert (registry : Registry τ) (registration : Registration τ) :
    registration.apply registry = registry.insert registration.schema := by
  cases registration <;> rfl

end Registration

namespace Registry

/-- What is found after schemas were registered one after the other: the last one of the name. -/
theorem find?_insertMany (registry : Registry τ) (schemas : List (Schema τ)) (name : String) :
    (registry.insertMany schemas).find? name =
      (schemas.reverse.find? (·.typeName = name)).or (registry.find? name) := by
  induction schemas generalizing registry with
  | nil => rfl
  | cons first more ih =>
    have hstep : (registry.insertMany (first :: more)).find? name =
        (more.reverse.find? (·.typeName = name)).or ((registry.insert first).find? name) :=
      ih (registry.insert first)
    rw [hstep, find?_insert, List.reverse_cons, List.find?_append, Option.or_assoc]
    congr 1
    by_cases hname : first.typeName = name <;> simp [hname]

/-- The registered names are listed once each, in the order of their code points. -/
theorem pairwise_typeNames (registry : Registry τ) : registry.typeNames.Pairwise (· < ·) := by
  have hordered := registry.schemas.ordered_keys
  exact hordered.imp fun h => compareOfLessAndEq_eq_lt.mp h

theorem length_typeNames (registry : Registry τ) : registry.typeNames.length = registry.size :=
  registry.schemas.length_keys

theorem isEmpty_typeNames (registry : Registry τ) :
    registry.typeNames.isEmpty = registry.isEmpty :=
  registry.schemas.isEmpty_keys

variable [Described τ]

/-- A run of additions. -/
def run (start : Registry τ) (registrations : List (Registration τ)) : Registry τ :=
  registrations.foldl Registration.apply start

/-- Registrations one after the other put in the schemas that they describe. -/
theorem run_eq_insertMany (start : Registry τ) (registrations : List (Registration τ)) :
    start.run registrations = start.insertMany (registrations.map Registration.schema) := by
  rw [insertMany, List.foldl_map, run]
  congr 1
  funext registry registration
  exact registration.apply_eq_insert registry

/-- A name finds the schema that was registered last, and what it found before if none was. -/
theorem find?_run (start : Registry τ) (registrations : List (Registration τ)) (name : String) :
    (start.run registrations).find? name =
      ((registrations.map Registration.schema).reverse.find? (·.typeName = name)).or
        (start.find? name) := by
  rw [run_eq_insertMany, find?_insertMany]

/-- **What a registry holds.** Add to any registry, be it empty or read from a document, in any of
the three ways and any number of times. Then each schema is found under its own name; what is found
under a name is the schema of that name that was registered last, or else the one found at the
start; a schema that is registered next is exchanged for what was found under its name before, and
nothing else changes. The registered names are listed in the order of their code points, each once;
they are those under which a schema is found, and there are as many of them as the size says. -/
theorem run_laws (start : Registry τ) (registrations : List (Registration τ)) :
    (∀ name schema, (start.run registrations).find? name = some schema →
      schema.typeName = name) ∧
    (∀ name, (start.run registrations).find? name =
      ((registrations.map Registration.schema).reverse.find? (·.typeName = name)).or
        (start.find? name)) ∧
    (∀ next : Schema τ,
      ((start.run registrations).replace next).1 =
        (start.run registrations).find? next.typeName ∧
      ∀ name, ((start.run registrations).replace next).2.find? name =
        if next.typeName = name then some next else (start.run registrations).find? name) ∧
    (start.run registrations).typeNames.Pairwise (· < ·) ∧
    (∀ name, name ∈ (start.run registrations).typeNames ↔
      ((start.run registrations).find? name).isSome = true) ∧
    (start.run registrations).size = (start.run registrations).typeNames.length ∧
    ((start.run registrations).isEmpty = true ↔ (start.run registrations).typeNames = []) := by
  generalize hrun : start.run registrations = registry
  refine ⟨fun name schema => registry.named, ?_, ?_, registry.pairwise_typeNames,
    fun name => mem_typeNames, registry.length_typeNames.symm, ?_⟩
  · intro name
    rw [← hrun, find?_run]
  · intro next
    exact ⟨rfl, registry.find?_insert next⟩
  · rw [← isEmpty_typeNames, List.isEmpty_iff]

/-- Persons are described twice. -/
def describedTwice : List (Registration Empty) :=
  [.insert ⟨"Person", [.plain "id"], none⟩, .insert ⟨"Team", [], none⟩,
   .replace ⟨"Person", [.plain "id", .plain "age"], none⟩]

theorem run_laws_describedTwice :
    (run ∅ describedTwice).find? "Person" = some ⟨"Person", [.plain "id", .plain "age"], none⟩ ∧
      (∀ schema, (run ∅ describedTwice).find? "Person" = some schema →
        schema.typeName = "Person") ∧
      "Team" ∈ (run ∅ describedTwice).typeNames := by
  obtain ⟨hnamed, hfind, _, _, hnames, _, _⟩ := run_laws ∅ describedTwice
  refine ⟨hfind "Person", hnamed "Person", (hnames "Team").mpr ?_⟩
  rw [hfind]
  rfl

end Registry

end FilterScope
