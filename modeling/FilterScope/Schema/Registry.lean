import FilterScope.Schema.Basic
import Std.Data.ExtTreeMap

/-!
# Registries

A `Registry` holds at most one schema per type name, and holds each under its own type name: that is
a field of the type (`Registry.named`), so no operation can break it. Two registries are equal as
soon as they find the same schemas (`Registry.ext_find?`), whatever they were built from, and the
names come out in the order of their code points.
-/

namespace FilterScope

/-- Schemas by type name. -/
structure Registry (τ : Type) where
  /-- the schema of each registered name -/
  schemas : Std.ExtTreeMap String (Schema τ)
  /-- each schema is held under its own type name -/
  named : ∀ {name : String} {schema : Schema τ}, schemas[name]? = some schema →
    schema.typeName = name

namespace Registry

variable {τ : Type}

/-- The registry that holds no schema. -/
def empty : Registry τ :=
  ⟨∅, fun h => by simp at h⟩

instance : EmptyCollection (Registry τ) := ⟨empty⟩

/-- The schema registered under a name. -/
def find? (registry : Registry τ) : Provider τ :=
  fun name => registry.schemas[name]?

/-- Registers a schema under its type name, in place of any registered there before. -/
def insert (registry : Registry τ) (schema : Schema τ) : Registry τ where
  schemas := registry.schemas.insert schema.typeName schema
  named {name found} h := by
    rw [Std.ExtTreeMap.getElem?_insert] at h
    split at h
    · next heq =>
      obtain rfl := Option.some.inj h
      exact Std.LawfulEqCmp.eq_of_compare heq
    · exact registry.named h

/-- Registers a schema, and hands back the one that it takes the place of. -/
def replace (registry : Registry τ) (schema : Schema τ) : Option (Schema τ) × Registry τ :=
  (registry.find? schema.typeName, registry.insert schema)

/-- Registers the schema of a type known in advance. -/
def insertTarget [Described τ] (registry : Registry τ) (target : τ) : Registry τ :=
  registry.insert (Described.schema target)

/-- Registers schemas one after the other. -/
def insertMany (registry : Registry τ) (schemas : List (Schema τ)) : Registry τ :=
  schemas.foldl insert registry

/-- The registered type names in the order of their code points. -/
def typeNames (registry : Registry τ) : List String :=
  registry.schemas.keys

/-- The registered schemas in the order of their names. -/
def toList (registry : Registry τ) : List (Schema τ) :=
  registry.schemas.values

/-- The number of registered schemas. -/
def size (registry : Registry τ) : Nat :=
  registry.schemas.size

/-- Whether no schema is registered. -/
def isEmpty (registry : Registry τ) : Bool :=
  registry.schemas.isEmpty

/-! ## What the operations do to the schemas that are found -/

theorem ext_find? {r s : Registry τ} (h : ∀ name, r.find? name = s.find? name) : r = s := by
  obtain ⟨rs, _⟩ := r
  obtain ⟨ss, _⟩ := s
  obtain rfl : rs = ss := Std.ExtTreeMap.ext_getElem? h
  rfl

@[simp] theorem find?_empty (name : String) : (∅ : Registry τ).find? name = none :=
  Std.ExtTreeMap.getElem?_empty

/-- A schema that is inserted is found under its name, and no other is changed. -/
theorem find?_insert (registry : Registry τ) (schema : Schema τ) (name : String) :
    (registry.insert schema).find? name =
      if schema.typeName = name then some schema else registry.find? name := by
  simp only [find?, insert, Std.ExtTreeMap.getElem?_insert, Std.LawfulEqCmp.compare_eq_iff_eq]

theorem find?_insert_of_ne (registry : Registry τ) {schema : Schema τ} {name : String}
    (h : schema.typeName ≠ name) :
    (registry.insert schema).find? name = registry.find? name := by
  rw [find?_insert, if_neg h]

/-- The registered names are those under which a schema is found. -/
theorem mem_typeNames {registry : Registry τ} {name : String} :
    name ∈ registry.typeNames ↔ (registry.find? name).isSome = true := by
  rw [typeNames, Std.ExtTreeMap.mem_keys, Std.ExtTreeMap.mem_iff_isSome_getElem?]
  rfl

end Registry

end FilterScope
