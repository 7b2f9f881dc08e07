/-!
# Schemas: what a filter may name

A `Schema` lists the fields of a type. A field is plain, or it holds a nested object, whose own
schema is found in one of three ways (`Nested`). A type may extend another; its **visible** fields
are its own, in order, and then those that its immediate supertype declares itself. What the
supertype extends in turn is never visible, and names are not made unique: the first visible field
of a name is the one it stands for (`Schema.field?`).

Types known in advance form a family `τ`, and `Described.schema` gives each member its schema. A
member may nest itself, directly or through others: a field refers to the member and its
schema is only asked for on use, so no schema is ever infinite.

A schema is written down as a list of steps (`Schema.ofSteps`): the field steps in order are its own
fields, and the last supertype step is its supertype.
-/

namespace FilterScope

/-! ## Schemas, fields and nested types -/

mutual

/-- A type that filters can be written for. -/
structure Schema (τ : Type) where
  /-- the name of the type -/
  typeName : String
  /-- the fields that the type declares itself -/
  fields : List (Field τ)
  /-- the type that it extends -/
  supertype : Option (Schema τ)

/-- A field as a type declares it. -/
structure Field (τ : Type) where
  /-- the name that a selector's segment must equal -/
  name : String
  /-- where the schema of the nested object is found; none for a plain field -/
  nested : Option (Nested τ)

/-- Where the schema of a nested object is found. -/
inductive Nested (τ : Type) where
  /-- the schema itself -/
  | resolved (schema : Schema τ)
  /-- a type known in advance, whose schema is asked for on use -/
  | deferred (target : τ)
  /-- the name of a type, to be looked up where filters are checked -/
  | named (typeName : String)

end

/-- A family of types known in advance, each of which has a schema. -/
class Described (τ : Type) where
  /-- the schema of a member of the family -/
  schema : τ → Schema τ

/-- No type is known in advance. -/
instance : Described Empty where
  schema := nofun

/-- Finds schemas by type name. -/
abbrev Provider (τ : Type) : Type := String → Option (Schema τ)

/-- Finds no schema at all. -/
def Provider.none {τ : Type} : Provider τ := fun _ => Option.none

variable {τ : Type}

/-! ## Visible fields -/

/-- A field together with the type that declares it. -/
structure VisibleField (τ : Type) where
  /-- the field -/
  field : Field τ
  /-- the name of the type that declares it -/
  declaredOn : String

namespace Schema

/-- The fields that a type declares itself. -/
def own (schema : Schema τ) : List (VisibleField τ) :=
  schema.fields.map (⟨·, schema.typeName⟩)

/-- The fields that can be named on a type: its own, then its immediate supertype's own. -/
def visible (schema : Schema τ) : List (VisibleField τ) :=
  schema.own ++ (schema.supertype.elim [] own)

/-- The field that a name stands for: the first visible one of that name. -/
def field? (schema : Schema τ) (name : String) : Option (VisibleField τ) :=
  schema.visible.find? (·.field.name == name)

end Schema

/-! ## Finding nested schemas -/

namespace Nested

/-- The schema of a nested object as far as it can be told without a provider. -/
def schema? [Described τ] : Nested τ → Option (Schema τ)
  | .resolved schema => some schema
  | .deferred target => some (Described.schema target)
  | .named _ => none

/-- The name of the type that a nested object is looked up by, if it is. -/
def reference? : Nested τ → Option String
  | .resolved _ => none
  | .deferred _ => none
  | .named typeName => some typeName

/-- The schema of a nested object, or the name under which the provider has none. -/
def find [Described τ] (provider : Provider τ) : Nested τ → Except String (Schema τ)
  | .resolved schema => .ok schema
  | .deferred target => .ok (Described.schema target)
  | .named typeName => (provider typeName).elim (.error typeName) .ok

end Nested

/-! ## Writing schemas down -/

namespace Field

/-- A field that holds a plain value. -/
def plain (name : String) : Field τ := ⟨name, none⟩

/-- A field that holds an object with the given schema. -/
def resolved (name : String) (schema : Schema τ) : Field τ := ⟨name, some (.resolved schema)⟩

/-- A field that holds an object of a type known in advance. -/
def deferred (name : String) (target : τ) : Field τ := ⟨name, some (.deferred target)⟩

/-- A field that holds an object of a type looked up by name. -/
def named (name typeName : String) : Field τ := ⟨name, some (.named typeName)⟩

end Field

/-- One step of writing a schema down. -/
inductive Step (τ : Type) where
  /-- declares one more field, after those declared before -/
  | field (field : Field τ)
  /-- names the supertype, in place of one named before -/
  | supertype (schema : Schema τ)

namespace Schema

/-- A type without fields and supertype. -/
def empty (typeName : String) : Schema τ := ⟨typeName, [], none⟩

/-- Takes one step. -/
def step (schema : Schema τ) : Step τ → Schema τ
  | .field field => { schema with fields := schema.fields ++ [field] }
  | .supertype supertype => { schema with supertype := some supertype }

/-- The schema that is reached from the empty one by the given steps. -/
def ofSteps (typeName : String) (steps : List (Step τ)) : Schema τ :=
  steps.foldl step (empty typeName)

end Schema

end FilterScope
