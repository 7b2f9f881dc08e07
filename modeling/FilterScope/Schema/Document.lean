import FilterScope.Json.Record
import FilterScope.Json.Writer
import FilterScope.Schema.Resolution
import FilterScope.File.Contents

/-!
# Type definitions as a JSON document

A document is an object with the key `types`, whose value lists the definitions:

* a **type** has a `name`, and may have `extends` (the name of a type, or null) and `fields` (a
  list);
* a **field** is its name alone, or an object with a `name` and, for a nested object, `nested`
  (the name of a type, or null).

A document and a type are records with a fixed set of keys. A field is read differently, because
it has two forms: it is read as a whole, and then looked at. That makes it an exception in two
ways. Its value may not be nested too deep, though none of its parts may be nested at all; and a
key of a field that means nothing is passed over.
-/

namespace FilterScope

open Json

/-! ## Fields -/

/-- How many levels deep a value may be nested where a field is expected. A document may be nested
127 levels deep as a whole, and a field stands inside four of them. -/
def fieldLevels : Nat := 123

/-- The value of a key that must be given once. -/
def single? (members : List (String × Value)) (key : String) : Option Value :=
  match members.filter (·.1 == key) with
  | [member] => some member.2
  | _ => none

/-- The nested type that the members of a field name. The key may be missing, but not repeated. -/
def nestedOf? (members : List (String × Value)) : Option (Option String) :=
  match members.filter (·.1 == "nested") with
  | [] => some none
  | [(_, .null)] => some none
  | [(_, .text typeName)] => some (some typeName)
  | _ => none

/-- The field that a value stands for. -/
def FieldDefinition.ofValue? : Value → Option FieldDefinition
  | .text name => some ⟨name, none⟩
  | .object members =>
    match single? members "name", nestedOf? members with
    | some (.text name), some nested => some ⟨name, nested⟩
    | _, _ => none
  | _ => none

/-- Reads a field. -/
def FieldDefinition.read : Reader FieldDefinition := do
  let value ← Reader.value .kept fieldLevels
  match FieldDefinition.ofValue? value with
  | none => .fail .misshapen
  | some field => pure field

/-! ## Types -/

/-- The parts of a type that have been read. -/
structure TypeParts where
  /-- the name -/
  name : Option String
  /-- the supertype, which may have been read as null -/
  supertype : Option (Option String)
  /-- the fields -/
  fields : Option (List FieldDefinition)

/-- How a type is written. -/
def TypeDefinition.record : Record TypeParts TypeDefinition where
  parts :=
    [⟨"name", (·.name.isSome), fun parts =>
        (fun name => { parts with name := some name }) <$> Reader.string⟩,
     ⟨"extends", (·.supertype.isSome), fun parts =>
        (fun supertype => { parts with supertype := some supertype }) <$>
          Reader.optional Reader.string⟩,
     ⟨"fields", (·.fields.isSome), fun parts =>
        (fun fields => { parts with fields := some fields }) <$>
          Reader.list FieldDefinition.read⟩]
  surplus := .refused
  initial := ⟨none, none, none⟩
  finish parts := parts.name.map fun name =>
    ⟨name, parts.supertype.getD none, parts.fields.getD []⟩

/-! ## Documents -/

/-- How a document is written. -/
def definitionsRecord : Record (Option (List TypeDefinition)) (List TypeDefinition) where
  parts := [⟨"types", Option.isSome, fun _ => some <$> Reader.list TypeDefinition.record.read⟩]
  surplus := .refused
  initial := none
  finish := id

/-- Reads the type definitions of a document. -/
def readDefinitions (text : String) : Except Fault (List TypeDefinition) :=
  definitionsRecord.read.document text

/-! ## Writing documents -/

/-- How a field is written: a plain one as its name, a nested one as an object. -/
def FieldDefinition.write (field : FieldDefinition) : List Char :=
  match field.nested with
  | none => writeString field.name
  | some typeName =>
    writeObject [("name", writeString field.name), ("nested", writeString typeName)]

/-- How a type is written: without `extends` if it extends nothing, and always with `fields`. -/
def TypeDefinition.write (definition : TypeDefinition) : List Char :=
  writeObject <|
    [("name", writeString definition.name)] ++
      (definition.supertype.map fun supertype => ("extends", writeString supertype)).toList ++
        [("fields", writeList (definition.fields.map FieldDefinition.write))]

/-- The plain document of a list of type definitions. -/
def writeDefinitions (definitions : List TypeDefinition) : String :=
  String.ofList <| writeObject [("types", writeList (definitions.map TypeDefinition.write))]

/-! ## Registries of documents -/

/-- Why a registry cannot be loaded. -/
inductive LoadFault where
  /-- the file cannot be read -/
  | unreadable (fault : File.ReadFault)
  /-- the text is not a document of type definitions -/
  | illFormed (fault : Fault)
  /-- the definitions do not make a registry -/
  | invalid (fault : DefinitionFault)
  deriving DecidableEq, Repr

/-- The words for a registry that cannot be loaded. -/
def LoadFault.message : LoadFault → String
  | .unreadable fault => "Failed to read schema file: " ++ fault.message
  | .illFormed fault => "Failed to parse schema definition: " ++ fault.message
  | .invalid fault => fault.message

variable {τ : Type}

/-- The registry that a document defines. -/
def Registry.ofDocument (text : String) : Except LoadFault (Registry τ) :=
  match readDefinitions text with
  | .error fault => .error (.illFormed fault)
  | .ok definitions =>
    match Registry.ofDefinitions definitions with
    | .error fault => .error (.invalid fault)
    | .ok registry => .ok registry

/-- The registry that a file defines. -/
def Registry.ofFile (contents : File.Contents) : Except LoadFault (Registry τ) :=
  match contents.text with
  | .error fault => .error (.unreadable fault)
  | .ok text => Registry.ofDocument text

end FilterScope
