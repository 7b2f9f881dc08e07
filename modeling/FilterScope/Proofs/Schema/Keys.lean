import FilterScope.Proofs.Json.Names
import FilterScope.Proofs.Schema.Document
import FilterScope.Proofs.Schema.Registry

/-!
# Keys of a document of type definitions

A document has one key and a type has three. Any other key there is refused, wherever it stands. A
field may be an object too, with two keys of its own; but a field is read as a whole before it is
looked at, and no look is taken at its other keys. They are passed over in silence, so a field whose
key `nested` is misspelled is a plain field.
-/

namespace FilterScope

open Json

variable {τ : Type}

/-! ## The keys at each level -/

/-- The key of a document. -/
def documentKeys : List String := ["types"]

/-- The keys of a type, in the order in which a list gives their values. -/
def typeKeys : List String := ["name", "extends", "fields"]

/-- The keys of a field. -/
def fieldKeys : List String := ["name", "nested"]

namespace Json.Value

/-- The types of a document. -/
def types (doc : Value) : List Value :=
  (doc.part documentKeys "types").flatMap items

/-- The fields of a type. -/
def fields (type : Value) : List Value :=
  (type.part typeKeys "fields").flatMap items

/-- A document and its types have no keys but the ones they may have. -/
structure KeysKnown (doc : Value) : Prop where
  /-- the keys of the document -/
  document : doc.keys ⊆ documentKeys
  /-- the keys of each type -/
  types : ∀ type ∈ doc.types, type.keys ⊆ typeKeys

/-- A document without the other keys of itself and of its types. -/
def withKnownKeys (doc : Value) : Value :=
  (doc.only documentKeys).mapNamed documentKeys fun _ => mapItems (·.only typeKeys)

/-- A type without the other keys of its fields. -/
def typeWithFieldKeys (type : Value) : Value :=
  type.mapNamed typeKeys fun name v =>
    if name = "fields" then v.mapItems (·.only fieldKeys) else v

/-- A document without the other keys of its fields. -/
def withFieldKeys (doc : Value) : Value :=
  doc.mapNamed documentKeys fun _ => mapItems typeWithFieldKeys

end Json.Value

/-! ## Fields -/

theorem filter_only (entries : List (String × Value)) {keys : List String} {key : String}
    (hkey : key ∈ keys) :
    (entries.filter (keys.contains ·.1)).filter (·.1 == key) = entries.filter (·.1 == key) := by
  rw [List.filter_filter]
  refine List.filter_congr fun entry _ => ?_
  by_cases heq : entry.1 = key
  · simp [heq, hkey]
  · simp [heq]

/-- A look at a field takes no notice of other keys. -/
theorem FieldDefinition.ofValue_only (v : Value) :
    FieldDefinition.ofValue (v.only fieldKeys) = FieldDefinition.ofValue v := by
  cases v with
  | object entries =>
    have hname := filter_only entries (by decide : "name" ∈ fieldKeys)
    have hnested := filter_only entries (by decide : "nested" ∈ fieldKeys)
    simp only [FieldDefinition.ofValue, Value.only, FieldDefinition.ofValue?, single?, nestedOf?,
      hname, hnested]
  | _ => rfl

/-! ## Documents and types -/

/-- Keys that a field does not have make no difference to its type. -/
theorem TypeDefinition.ofValue_typeWithFieldKeys (v : Value) :
    TypeDefinition.ofValue v.typeWithFieldKeys = TypeDefinition.ofValue v := by
  refine Record.ofValue_mapNamed (fun part hpart parts w => ?_) v
  simp only [TypeDefinition.record, List.mem_cons, List.not_mem_nil, or_false] at hpart
  rcases hpart with rfl | rfl | rfl
  · rfl
  · rfl
  · simp only [TypeParts.look, if_pos, Value.asList_mapItems FieldDefinition.ofValue_only]

/-- Keys that a field does not have make no difference to the definitions. -/
theorem definitionsOfValue_withFieldKeys (doc : Value) :
    definitionsOfValue doc.withFieldKeys = definitionsOfValue doc := by
  refine Record.ofValue_mapNamed (fun part _ definitions w => ?_) doc
  simp only [lookTypes, Value.asList_mapItems TypeDefinition.ofValue_typeWithFieldKeys]

/-- Only documents whose types have known keys are looked at as definitions. -/
theorem keysKnown_of_definitionsOfValue {doc : Value} {definitions : List TypeDefinition}
    (h : definitionsOfValue doc = .ok definitions) : doc.KeysKnown where
  document := Record.keys_subset_of_ofValue h
  types := by
    intro type htype
    obtain ⟨w, hw, hitem⟩ := List.mem_flatMap.mp htype
    obtain ⟨entry, hentry, rfl⟩ := List.mem_map.mp hw
    obtain ⟨before, after, hlook⟩ := Record.accepts_of_ofValue h (List.mem_filter.mp hentry).1
    obtain ⟨types, htypes⟩ : ∃ types, entry.2.asList TypeDefinition.ofValue = .ok types := by
      cases hlist : entry.2.asList TypeDefinition.ofValue with
      | error fault =>
        rw [lookTypes, hlist] at hlook
        cases hlook
      | ok types => exact ⟨types, rfl⟩
    obtain ⟨definition, hdefinition⟩ := Value.accepts_of_asList htypes hitem
    exact Record.keys_subset_of_ofValue hdefinition

/-- A document from which definitions can be read has only known keys. -/
theorem keysKnown_of_readDefinitions {text : String} {doc : Value}
    {definitions : List TypeDefinition} (hdoc : wholeDocument text = .ok doc)
    (h : readDefinitions text = .ok definitions) : doc.KeysKnown := by
  rw [readDefinitions_eq hdoc] at h
  exact keysKnown_of_definitionsOfValue h

/-- With other keys, a type is accepted as without them or refused as misshapen. -/
theorem TypeDefinition.tightens_only (v : Value) :
    Tightens (TypeDefinition.ofValue (v.only typeKeys)) (TypeDefinition.ofValue v) := by
  have h : Tightens
      (TypeDefinition.ofValue ((v.only typeKeys).mapNamed typeKeys fun _ w => w))
      (TypeDefinition.ofValue v) :=
    Record.tightens_ofValue (fun _ _ _ _ => .of_eq rfl) v
  rwa [Value.mapNamed_self] at h

theorem tightens_withKnownKeys (doc : Value) :
    Tightens (definitionsOfValue doc.withKnownKeys) (definitionsOfValue doc) :=
  Record.tightens_ofValue
    (fun _ _ _ w => (Tightens.asList TypeDefinition.tightens_only w).map some) doc

/-! ## Registries -/

theorem Registry.ofDocument_eq_illFormed {text : String} {fault : Fault}
    (h : readDefinitions text = .error fault) :
    (Registry.ofDocument text : Except LoadFault (Registry τ)) = .error (.illFormed fault) := by
  rw [Registry.ofDocument, h]

theorem Registry.exists_readDefinitions {text : String} {registry : Registry τ}
    (h : Registry.ofDocument text = .ok registry) :
    ∃ definitions, readDefinitions text = .ok definitions := by
  cases hread : readDefinitions text with
  | error fault =>
    rw [Registry.ofDocument_eq_illFormed hread] at h
    cases h
  | ok definitions => exact ⟨definitions, rfl⟩

/-- Documents that are read alike give the same. -/
theorem Registry.ofDocument_congr {text text' : String}
    (h : readDefinitions text = readDefinitions text') :
    (Registry.ofDocument text : Except LoadFault (Registry τ)) = Registry.ofDocument text' := by
  rw [Registry.ofDocument, Registry.ofDocument, h]

/-- A text in which no definitions can be read is an ill-formed document. -/
theorem Registry.exists_illFormed {text : String}
    (h : ∀ definitions, readDefinitions text ≠ .ok definitions) :
    ∃ fault, (Registry.ofDocument text : Except LoadFault (Registry τ)) =
      .error (.illFormed fault) := by
  cases hread : readDefinitions text with
  | error fault => exact ⟨fault, Registry.ofDocument_eq_illFormed hread⟩
  | ok definitions => exact absurd hread (h definitions)

/-- **Keys of a document.** A document that makes a registry can be read as a whole, and has no keys
but the ones that it and its types may have. One that cannot be read as a whole is ill-formed. So is
one with another key at those two levels, and it is misshapen if nothing else is wrong with it. Of
two documents that can be read as a whole and differ in other keys of fields only, both come to the
same. -/
theorem Registry.ofDocument_keys (text : String) :
    (∀ registry : Registry τ, Registry.ofDocument text = .ok registry →
      ∃ doc, wholeDocument text = .ok doc ∧ doc.KeysKnown) ∧
    ((∀ doc, wholeDocument text ≠ .ok doc) →
      ∃ fault, (Registry.ofDocument text : Except LoadFault (Registry τ)) =
        .error (.illFormed fault)) ∧
    (∀ doc, wholeDocument text = .ok doc → ¬ doc.KeysKnown →
      (∃ fault, (Registry.ofDocument text : Except LoadFault (Registry τ)) =
        .error (.illFormed fault)) ∧
      ∀ text' definitions, wholeDocument text' = .ok doc.withKnownKeys →
        readDefinitions text' = .ok definitions →
        (Registry.ofDocument text : Except LoadFault (Registry τ)) =
          .error (.illFormed .misshapen)) ∧
    (∀ doc, wholeDocument text = .ok doc → ∀ text' doc', wholeDocument text' = .ok doc' →
      doc'.withFieldKeys = doc.withFieldKeys →
      (Registry.ofDocument text' : Except LoadFault (Registry τ)) = Registry.ofDocument text) := by
  refine ⟨fun registry h => ?_, fun hwhole => ?_,
    fun doc hdoc hkeys => ⟨?_, fun text' definitions hdoc' h => ?_⟩,
    fun doc hdoc text' doc' hdoc' h => ?_⟩
  · obtain ⟨definitions, hread⟩ := Registry.exists_readDefinitions h
    obtain ⟨doc, hdoc⟩ := exists_wholeDocument hread
    exact ⟨doc, hdoc, keysKnown_of_readDefinitions hdoc hread⟩
  · refine Registry.exists_illFormed fun definitions hread => ?_
    obtain ⟨doc, hdoc⟩ := exists_wholeDocument hread
    exact hwhole doc hdoc
  · exact Registry.exists_illFormed fun definitions hread =>
      hkeys (keysKnown_of_readDefinitions hdoc hread)
  · refine Registry.ofDocument_eq_illFormed ?_
    rw [readDefinitions_eq hdoc'] at h
    rw [readDefinitions_eq hdoc]
    rcases tightens_withKnownKeys doc definitions h with hread | hread
    · exact absurd (keysKnown_of_definitionsOfValue hread) hkeys
    · exact hread
  · refine Registry.ofDocument_congr ?_
    rw [readDefinitions_eq hdoc', readDefinitions_eq hdoc, ← definitionsOfValue_withFieldKeys doc',
      h, definitionsOfValue_withFieldKeys]

/-- A document of one type that has other members besides its name. -/
def oneType (members : List (String × List Char)) : String :=
  String.ofList <| writeObject
    [("types", writeList [writeObject (("name", writeString "A") :: members)])]

/-- A document in which the key `nested` of a field is misspelled. -/
def misspelledField : String :=
  oneType [("fields", writeList
    [writeObject [("name", writeString "b"), ("nestd", writeString "A")]])]

theorem wholeDocument_misspelledField :
    wholeDocument misspelledField = .ok (.object [("types", .list [.object [("name", .text "A"),
      ("fields", .list [.object [("name", .text "b"), ("nestd", .text "A")]])]])]) := by
  decide +kernel

theorem readDefinitions_misspelledField :
    readDefinitions misspelledField = .ok [⟨"A", none, [⟨"b", none⟩]⟩] := by
  decide +kernel

theorem exists_ofDocument_misspelledField :
    ∃ registry : Registry Empty, Registry.ofDocument misspelledField = .ok registry := by
  have hresolvable : Resolvable [⟨"A", none, [⟨"b", none⟩]⟩] :=
    .of_references_eq_nil (by decide)
  obtain ⟨registry, h⟩ := (exists_ofDefinitions_iff (by decide)).mpr hresolvable
  exact ⟨registry, by rw [ofDocument_eq readDefinitions_misspelledField, h]; rfl⟩

theorem ofDocument_keys_misspelled :
    (∃ registry : Registry Empty, Registry.ofDocument misspelledField = .ok registry ∧
      ∃ doc, wholeDocument misspelledField = .ok doc ∧ doc.KeysKnown) ∧
    (∃ fault, (Registry.ofDocument (oneType [("fields", writeList [writeObject
        [("name", writeString "b"), ("nestd", "1e999".toList)]])]) :
      Except LoadFault (Registry Empty)) = .error (.illFormed fault)) ∧
    (Registry.ofDocument (oneType [("feilds", writeList [writeString "b"])]) :
      Except LoadFault (Registry Empty)) = .error (.illFormed .misshapen) ∧
    (Registry.ofDocument (oneType [("fields", writeList
        [writeObject [("name", writeString "b")]])]) : Except LoadFault (Registry Empty)) =
      Registry.ofDocument misspelledField := by
  obtain ⟨registry, hregistry⟩ := exists_ofDocument_misspelledField
  refine ⟨⟨registry, hregistry, (Registry.ofDocument_keys _).1 registry hregistry⟩, ?_, ?_, ?_⟩
  · -- The value of the misspelled key is a number out of range.
    have hwhole : wholeDocument (oneType [("fields", writeList [writeObject
        [("name", writeString "b"), ("nestd", "1e999".toList)]])]) = .error .malformed := by
      decide +kernel
    refine (Registry.ofDocument_keys _).2.1 fun doc hdoc => ?_
    cases hwhole.symm.trans hdoc
  · have hdoc : wholeDocument (oneType [("feilds", writeList [writeString "b"])]) =
        .ok (.object [("types", .list [.object [("name", .text "A"),
          ("feilds", .list [.text "b"])]])]) := by
      decide +kernel
    have hkeys : ¬ Value.KeysKnown (.object [("types", .list [.object [("name", .text "A"),
        ("feilds", .list [.text "b"])]])]) := by
      intro hknown
      have htype : Value.keys (.object [("name", .text "A"), ("feilds", .list [.text "b"])]) ⊆
          typeKeys := hknown.types _ List.mem_cons_self
      exact absurd htype (by decide)
    exact ((Registry.ofDocument_keys _).2.2.1 _ hdoc hkeys).2 (oneType []) [⟨"A", none, []⟩]
      (by decide +kernel) (by decide +kernel)
  · have hdoc : wholeDocument (oneType [("fields", writeList
        [writeObject [("name", writeString "b")]])]) =
        .ok (.object [("types", .list [.object [("name", .text "A"),
          ("fields", .list [.object [("name", .text "b")]])]])]) := by
      decide +kernel
    exact (Registry.ofDocument_keys misspelledField).2.2.2 _ wholeDocument_misspelledField _ _ hdoc
      (by decide +kernel)

/-- The misspelled key is in the document, the document makes a registry, and in it the field is
plain. -/
theorem not_fieldKeys_misspelledField :
    readDefinitions misspelledField = .ok [⟨"A", none, [⟨"b", none⟩]⟩] ∧
      ¬ ∀ (text : String) (registry : Registry Empty) (doc : Value),
        Registry.ofDocument text = .ok registry → wholeDocument text = .ok doc →
          doc.KeysKnown ∧ ∀ type ∈ doc.types, ∀ field ∈ type.fields, field.keys ⊆ fieldKeys := by
  refine ⟨readDefinitions_misspelledField, fun h => ?_⟩
  obtain ⟨registry, hregistry⟩ := exists_ofDocument_misspelledField
  have hkeys := (h _ registry _ hregistry wholeDocument_misspelledField).2
  have hfield : Value.keys (.object [("name", .text "b"), ("nestd", .text "A")]) ⊆ fieldKeys :=
    hkeys _ List.mem_cons_self _ List.mem_cons_self
  exact absurd hfield (by decide)

end FilterScope
