import FilterScope.Schema.Document
import FilterScope.Proofs.Json.Record

/-!
# Type definitions seen in a value

Where a document of type definitions can be read as a whole, its definitions are a function of the
value: what they are no longer depends on how the text is laid out or its strings are spelled, and
left to right reading shows in nothing but the first fault.

A document has three levels of records. `definitionsOfValue` looks at each of them the way it is
read: documents and types as records (`Record.ofValue`), fields as what they are read into anyway.
`readDefinitions_eq` puts the two together.
-/

namespace FilterScope

open Json Reader

/-! ## Looking at definitions -/

/-- The field that a value stands for. -/
def FieldDefinition.ofValue (v : Value) : Except Fault FieldDefinition :=
  match FieldDefinition.ofValue? v with
  | none => .error .misshapen
  | some field => .ok field

/-- What a value adds to the parts of a type, as the part of a name. -/
def TypeParts.look : String → TypeParts → Value → Except Fault TypeParts
  | "name", parts, v => (fun name => { parts with name := some name }) <$> v.asText
  | "extends", parts, v =>
    (fun supertype => { parts with supertype := some supertype }) <$> v.asOption Value.asText
  | "fields", parts, v =>
    (fun fields => { parts with fields := some fields }) <$> v.asList FieldDefinition.ofValue
  | _, _, _ => .error .misshapen

/-- The type definition that a value stands for. -/
def TypeDefinition.ofValue : Value → Except Fault TypeDefinition :=
  TypeDefinition.record.ofValue TypeParts.look

/-- What a value adds to a document, as its only part. -/
def lookTypes (_name : String) (_definitions : Option (List TypeDefinition)) (v : Value) :
    Except Fault (Option (List TypeDefinition)) :=
  some <$> v.asList TypeDefinition.ofValue

/-- The type definitions of a whole document. -/
def definitionsOfValue : Value → Except Fault (List TypeDefinition) :=
  definitionsRecord.ofValue lookTypes

/-! ## Reading definitions -/

theorem FieldDefinition.sees_read :
    FieldDefinition.read.Sees fieldLevels FieldDefinition.ofValue := by
  intro cs
  rw [FieldDefinition.read, run_bind]
  cases run (Reader.value .kept fieldLevels) cs with
  | error fault => exact ⟨fault, rfl⟩
  | ok p =>
    change _ = _ >>= _
    rw [ok_bind, FieldDefinition.ofValue]
    cases FieldDefinition.ofValue? p.1 <;> rfl

theorem TypeDefinition.sees_read :
    TypeDefinition.record.read.Sees (fieldLevels + 2) TypeDefinition.ofValue := by
  refine Record.sees_read (fun part hpart parts => ?_) rfl
  simp only [TypeDefinition.record, List.mem_cons, List.not_mem_nil, or_false] at hpart
  rcases hpart with rfl | rfl | rfl
  · exact (sees_string _).map _
  · exact (sees_string _).optional.map _
  · exact FieldDefinition.sees_read.list.map _

/-- How many levels deep a document may be nested. -/
def documentLevels : Nat := 127

/-- Reading a document of definitions directly is looking at its value. -/
theorem sees_definitions : definitionsRecord.read.Sees documentLevels definitionsOfValue := by
  refine Record.sees_read (fun part hpart definitions => ?_) rfl
  simp only [definitionsRecord, List.mem_cons, List.not_mem_nil, or_false] at hpart
  subst hpart
  exact TypeDefinition.sees_read.list.map some

/-! ## Whole documents -/

/-- Reads a document as a whole. -/
def wholeDocument (text : String) : Except Fault Value :=
  (Reader.value .kept documentLevels).document text

/-- **Reading and looking.** The definitions of a document that can be read as a whole are those
that a look at the whole finds, and so is the fault of one that defines nothing. -/
theorem readDefinitions_eq {text : String} {doc : Value} (h : wholeDocument text = .ok doc) :
    readDefinitions text = definitionsOfValue doc :=
  sees_definitions.document_eq h

/-- A document whose definitions can be read can be read as a whole. -/
theorem exists_wholeDocument {text : String} {definitions : List TypeDefinition}
    (h : readDefinitions text = .ok definitions) : ∃ doc, wholeDocument text = .ok doc :=
  sees_definitions.exists_whole h

end FilterScope
