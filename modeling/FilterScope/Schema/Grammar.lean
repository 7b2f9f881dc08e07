import Mathlib.Data.List.Forall2
import FilterScope.Json.Grammar
import FilterScope.Schema.Definition

/-!
# The grammar of documents of type definitions

What it means for a document to stand for a list of type definitions, said without a reader. The
text of a document spells a value (`Json.IsDocument`), and the rules here relate values to what they
stand for. They leave these choices:

* an **optional name** is left out, null, or a name (`IsOptionalName`);
* a **field** is its name alone or an object (`IsField`);
* the **fields** of a type are left out or a list, and may be empty either way (`IsFieldsMember`);
* a **type** is an object with its members in any order, or a list of their values in the order of
  declaration (`IsType`). A list cannot leave out a member that another one follows.
* a **document** is an object or a list in the same way, with one member (`IsDefinitions`).
-/

namespace FilterScope

open Json

/-! ## Fields -/

/-- What an optional name under a key adds to the members of an object. -/
inductive IsOptionalName (key : String) : List (String × Value) → Option String → Prop where
  /-- nothing -/
  | absent : IsOptionalName key [] none
  /-- the word `null` -/
  | null : IsOptionalName key [(key, .null)] none
  /-- a name -/
  | name {name : String} : IsOptionalName key [(key, .text name)] (some name)

/-- A value that stands for a field. -/
inductive IsField : Value → FieldDefinition → Prop where
  /-- the name of a plain field -/
  | bare {name : String} : IsField (.text name) ⟨name, none⟩
  /-- an object with a name and an optional type, in any order -/
  | object {members optional : List (String × Value)} {name : String} {nested : Option String}
      (hnested : IsOptionalName "nested" optional nested)
      (hmembers : members.Perm (("name", .text name) :: optional)) :
      IsField (.object members) ⟨name, nested⟩

/-! ## Types -/

/-- What the fields of a type add to its members. -/
inductive IsFieldsMember : List (String × Value) → List FieldDefinition → Prop where
  /-- nothing, if there are none -/
  | absent : IsFieldsMember [] []
  /-- a list of them -/
  | list {items : List Value} {fields : List FieldDefinition}
      (hitems : List.Forall₂ IsField items fields) :
      IsFieldsMember [("fields", .list items)] fields

/-- The members of a type in the order of declaration. -/
inductive IsTypeMembers : List (String × Value) → TypeDefinition → Prop where
  /-- its name, then its supertype and its fields as far as they are given -/
  | intro {extending declaring : List (String × Value)} {name : String} {supertype : Option String}
      {fields : List FieldDefinition} (hextends : IsOptionalName "extends" extending supertype)
      (hfields : IsFieldsMember declaring fields) :
      IsTypeMembers (("name", .text name) :: (extending ++ declaring)) ⟨name, supertype, fields⟩

/-- A value that stands for the definition of a type. -/
inductive IsType : Value → TypeDefinition → Prop where
  /-- an object of its members in any order -/
  | object {members declared : List (String × Value)} {definition : TypeDefinition}
      (hdeclared : IsTypeMembers declared definition) (hmembers : members.Perm declared) :
      IsType (.object members) definition
  /-- a list of the values of its members; only members at the end are left out -/
  | list {declared : List (String × Value)} {definition : TypeDefinition}
      (hdeclared : IsTypeMembers declared definition)
      (hkeys : declared.map (·.1) <+: ["name", "extends", "fields"]) :
      IsType (.list (declared.map (·.2))) definition

/-! ## Documents -/

/-- A value that stands for a list of type definitions. -/
inductive IsDefinitions : Value → List TypeDefinition → Prop where
  /-- an object of its only member -/
  | object {items : List Value} {definitions : List TypeDefinition}
      (htypes : List.Forall₂ IsType items definitions) :
      IsDefinitions (.object [("types", .list items)]) definitions
  /-- a list of the value of its only member -/
  | list {items : List Value} {definitions : List TypeDefinition}
      (htypes : List.Forall₂ IsType items definitions) :
      IsDefinitions (.list [.list items]) definitions

/-- A text that spells a list of type definitions. -/
inductive IsDefinitionsText : List Char → List TypeDefinition → Prop where
  /-- a text of a document that stands for it -/
  | intro {text : List Char} {doc : Value} {definitions : List TypeDefinition}
      (htext : IsDocument text doc) (hdoc : IsDefinitions doc definitions) :
      IsDefinitionsText text definitions

end FilterScope
