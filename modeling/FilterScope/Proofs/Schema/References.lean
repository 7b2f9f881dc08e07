import Mathlib.Data.List.Chain
import Mathlib.Data.List.Nodup
import Mathlib.Logic.Relation
import FilterScope.Schema.Definition

/-!
# References between type definitions

References are of two kinds: a type `Extends` its supertype and `Nests` the types of its fields, and
it `Refers` to both. Three relations on names are built from them.

* `Leads` follows references of both kinds, as many as there are.
* `Needs` holds between a type and those whose schemas are a part of its own: its supertype, and the
  nested types that do not lead back to it.
* A loop of supertypes makes definitions senseless, and it is the only kind of loop that `Needs` has
  (`transGen_extends_of_needs`): every step of a loop leads back to where it comes from, so none
  of them can be the step to a nested type.
-/

namespace FilterScope

open Relation (ReflTransGen TransGen)

/-! ## Names and the references of their definitions -/

/-- A name has a definition. -/
def Defines (defs : List TypeDefinition) (name : String) : Prop :=
  ∃ definition ∈ defs, definition.name = name

/-- A type extends another. -/
def Extends (defs : List TypeDefinition) (name supertype : String) : Prop :=
  ∃ definition ∈ defs, definition.name = name ∧ definition.supertype = some supertype

/-- A type has a field that nests another. -/
def Nests (defs : List TypeDefinition) (name nested : String) : Prop :=
  ∃ definition ∈ defs, definition.name = name ∧ ∃ field ∈ definition.fields,
    field.nested = some nested

/-- A type refers to another: it extends it, or has a field that nests it. -/
def Refers (defs : List TypeDefinition) (name other : String) : Prop :=
  Extends defs name other ∨ Nests defs name other

/-- The references of a type are its supertype and what its fields nest. -/
theorem TypeDefinition.mem_references_iff {definition : TypeDefinition} {name : String} :
    name ∈ definition.references ↔
      definition.supertype = some name ∨ ∃ field ∈ definition.fields, field.nested = some name := by
  rw [references, List.mem_append, Option.mem_toList, List.mem_filterMap]

variable {defs : List TypeDefinition}

/-- No definition is found if and only if the name is not defined. -/
theorem definition?_eq_none_iff {name : String} :
    definition? defs name = none ↔ ¬ Defines defs name := by
  have hfind : defs.find? (·.name == name) = none ↔ ¬ Defines defs name := by
    simp [Defines]
  rw [← hfind, definition?]
  split <;> simp_all

/-- Where no name is defined twice, a name has one definition. -/
theorem eq_of_name_eq (hnodup : (defs.map (·.name)).Nodup) {d d' : TypeDefinition} (hd : d ∈ defs)
    (hd' : d' ∈ defs) (hname : d.name = d'.name) : d = d' :=
  List.inj_on_of_nodup_map hnodup hd hd' hname

/-- Only a defined type refers to others. -/
theorem Refers.defines {name other : String} (h : Refers defs name other) : Defines defs name := by
  rcases h with ⟨d, hd, hname, _⟩ | ⟨d, hd, hname, _⟩ <;> exact ⟨d, hd, hname⟩

theorem Refers.of_mem_references {definition : TypeDefinition} {next : String}
    (hmem : definition ∈ defs) (href : next ∈ definition.references) :
    Refers defs definition.name next :=
  (TypeDefinition.mem_references_iff.mp href).imp (⟨definition, hmem, rfl, ·⟩)
    (⟨definition, hmem, rfl, ·⟩)

/-! ## Chains of references -/

namespace Leads

theorem trans {a b c : String} (h : Leads defs a b) (h' : Leads defs b c) : Leads defs a c := by
  induction h with
  | refl name => exact h'
  | step hmem href _ ih => exact .step hmem href (ih h')

theorem of_extends {a b : String} (h : Extends defs a b) : Leads defs a b := by
  obtain ⟨d, hd, rfl, hsupertype⟩ := h
  exact .step hd (d.mem_references_iff.mpr (.inl hsupertype)) (.refl b)

theorem of_nests {a b : String} (h : Nests defs a b) : Leads defs a b := by
  obtain ⟨d, hd, rfl, hfield⟩ := h
  exact .step hd (d.mem_references_iff.mpr (.inr hfield)) (.refl b)

theorem of_refers {a b : String} (h : Refers defs a b) : Leads defs a b :=
  h.elim .of_extends .of_nests

/-- A name leads to another by any number of references. -/
theorem iff_reflTransGen {a b : String} : Leads defs a b ↔ ReflTransGen (Refers defs) a b := by
  constructor
  · intro h
    induction h with
    | refl => exact .refl
    | step hmem href _ ih => exact ih.head (.of_mem_references hmem href)
  · intro h
    induction h with
    | refl => exact .refl a
    | tail _ hrefers ih => exact ih.trans (.of_refers hrefers)

/-- Chains of references depend on which definitions there are and not on their order. -/
theorem mono {defs' : List TypeDefinition} (hsubset : defs ⊆ defs') {a b : String}
    (h : Leads defs a b) : Leads defs' a b := by
  induction h with
  | refl name => exact .refl name
  | step hmem href _ ih => exact .step (hsubset hmem) href ih

/-- Only the last name of a chain may be undefined. -/
theorem defines {a b : String} (h : Leads defs a b) (hlast : Defines defs b) : Defines defs a := by
  cases h with
  | refl => exact hlast
  | step hmem _ _ => exact ⟨_, hmem, rfl⟩

end Leads

/-! ## The references whose schemas are needed -/

/-- The schema of a type cannot be made without that of another: it is the supertype, or a nested
type that does not lead back. -/
def Needs (defs : List TypeDefinition) (name other : String) : Prop :=
  Extends defs name other ∨ (Nests defs name other ∧ ¬ Leads defs other name)

theorem Needs.leads {a b : String} (h : Needs defs a b) : Leads defs a b := by
  rcases h with h | ⟨h, _⟩
  · exact .of_extends h
  · exact .of_nests h

theorem leads_of_transGen_needs {a b : String} (h : TransGen (Needs defs) a b) :
    Leads defs a b := by
  induction h with
  | single h => exact h.leads
  | tail _ h ih => exact ih.trans h.leads

/-- A step that is needed and leads back is a step to a supertype. -/
theorem Needs.extends_of_leads_back {a b : String} (h : Needs defs a b) (hback : Leads defs b a) :
    Extends defs a b := by
  rcases h with h | ⟨_, hnot⟩
  · exact h
  · exact absurd hback hnot

/-- A chain of needs that leads back is a chain of supertypes: from the end of any of its steps the
rest of the chain and the way back lead to where the step began. -/
theorem transGen_extends_of_needs {a b : String} (h : TransGen (Needs defs) a b)
    (hback : Leads defs b a) : TransGen (Extends defs) a b := by
  induction h with
  | single h => exact .single (h.extends_of_leads_back hback)
  | tail hchain hlast ih =>
    -- The end of the last step leads to the start, and along the chain to where the step began.
    have hround := hback.trans (leads_of_transGen_needs hchain)
    exact (ih (hlast.leads.trans hback)).tail (hlast.extends_of_leads_back hround)

/-- Supertypes loop. -/
def Loops (defs : List TypeDefinition) : Prop :=
  ∃ name, TransGen (Extends defs) name name

/-- What definitions without repeated names must satisfy to have schemas. -/
structure Resolvable (defs : List TypeDefinition) : Prop where
  /-- every type that is extended is defined -/
  supertypes : ∀ {name supertype : String}, Extends defs name supertype → Defines defs supertype
  /-- every type that is nested is defined -/
  nested : ∀ {name nested : String}, Nests defs name nested → Defines defs nested
  /-- supertypes do not loop -/
  acyclic : ¬ Loops defs

/-- Types that refer to no type can be resolved. -/
theorem Resolvable.of_references_eq_nil
    (h : ∀ definition ∈ defs, definition.references = []) : Resolvable defs := by
  have hextends {name supertype : String} : ¬ Extends defs name supertype := by
    rintro ⟨definition, hmem, -, hsupertype⟩
    have href := TypeDefinition.mem_references_iff.mpr (.inl hsupertype)
    rw [h definition hmem] at href
    exact List.not_mem_nil href
  have hnests {name nested : String} : ¬ Nests defs name nested := by
    rintro ⟨definition, hmem, -, hfield⟩
    have href := TypeDefinition.mem_references_iff.mpr (.inr hfield)
    rw [h definition hmem] at href
    exact List.not_mem_nil href
  refine ⟨fun hedge => absurd hedge hextends, fun hedge => absurd hedge hnests, ?_⟩
  rintro ⟨name, hloop⟩
  obtain ⟨_, hfirst, _⟩ := TransGen.head'_iff.mp hloop
  exact hextends hfirst

/-- The only loops among the types that need each other are those of supertypes. -/
theorem Loops.of_needs {name : String} (h : TransGen (Needs defs) name name) : Loops defs :=
  ⟨name, transGen_extends_of_needs h (.refl name)⟩

end FilterScope
