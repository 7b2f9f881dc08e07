import Mathlib.Data.List.Perm.Basic
import FilterScope.Schema.Grammar
import FilterScope.Proofs.Json.Grammar
import FilterScope.Proofs.Json.Writer
import FilterScope.Proofs.Schema.Document
import FilterScope.Proofs.Schema.Registry

/-!
# Every spelling of type definitions is read

A document that spells a list of type definitions is read as that list (`readDefinitions_of_text`),
whatever choices its spelling makes, and the plain document of the list is one of its spellings.

Reading directly is the same as looking at the whole value, so nothing here is about texts: the
choices left are those about values. The one that needs an argument is the order of the members of
an object. What a member adds to the parts of a type (`TypeParts.Adds`) is independent of what a
member with another key adds, so two such members can change places (`TypeParts.Adds.swap`), and
with them any members, as long as no key is repeated.
-/

namespace FilterScope

open Json Reader

variable {τ : Type}

/-! ## Fields -/

/-- A filter that leaves one thing at most leaves the same after things change places. -/
theorem filter_eq_of_perm {α : Type} {p : α → Bool} {l l' left : List α} (h : l.Perm l')
    (hleft : l'.filter p = left) (hshort : left.length ≤ 1) : l.filter p = left := by
  have hperm := h.filter p
  rw [hleft] at hperm
  match left, hshort with
  | [], _ => exact hperm.eq_nil
  | [_], _ => exact List.perm_singleton.mp hperm

/-- Every value that spells a field is looked at as that field. -/
theorem FieldDefinition.ofValue_of_isField {v : Value} {field : FieldDefinition}
    (h : IsField v field) : FieldDefinition.ofValue v = .ok field := by
  cases h with
  | bare => rfl
  | @object members optional name nested hnested hmembers =>
    have hname : members.filter (·.1 == "name") = [("name", .text name)] :=
      filter_eq_of_perm hmembers (by cases hnested <;> rfl) (Nat.le_refl 1)
    have hoptional : members.filter (·.1 == "nested") = optional :=
      filter_eq_of_perm hmembers (by cases hnested <;> rfl) (by cases hnested <;> simp)
    simp only [FieldDefinition.ofValue, FieldDefinition.ofValue?, single?, nestedOf?, hname,
      hoptional]
    cases hnested <;> rfl

theorem mapM_of_forall₂ {α : Type} {look : Value → Except Fault α} {items : List Value}
    {as : List α} (h : List.Forall₂ (fun v a => look v = .ok a) items as) :
    items.mapM look = .ok as := by
  induction h with
  | nil => rfl
  | cons hfirst _ ih =>
    rw [List.mapM_cons, hfirst, ok_bind, ih, ok_bind]
    rfl

/-! ## Members in any order -/

/-- A member adds what it stands for to the parts of a type; a part that is there already is not
given again. -/
inductive TypeParts.Adds : TypeParts → String × Value → TypeParts → Prop where
  /-- a name -/
  | name {parts : TypeParts} {v : Value} {name : String} (hnew : parts.name = none)
      (hv : v.asText = .ok name) : Adds parts ("name", v) { parts with name := some name }
  /-- a supertype, or that there is none -/
  | supertype {parts : TypeParts} {v : Value} {supertype : Option String}
      (hnew : parts.supertype = none) (hv : v.asOption Value.asText = .ok supertype) :
      Adds parts ("extends", v) { parts with supertype := some supertype }
  /-- fields -/
  | fields {parts : TypeParts} {v : Value} {fields : List FieldDefinition}
      (hnew : parts.fields = none) (hv : v.asList FieldDefinition.ofValue = .ok fields) :
      Adds parts ("fields", v) { parts with fields := some fields }

namespace TypeParts

variable {s t u : TypeParts} {entry entry' : String × Value}

/-- Members with different keys add what they add in either order. -/
theorem Adds.swap (hkeys : entry.1 ≠ entry'.1) (h : Adds s entry t) (h' : Adds t entry' u) :
    ∃ t', Adds s entry' t' ∧ Adds t' entry u := by
  cases h with
  | name hnew hv =>
    cases h' with
    | name => exact absurd rfl hkeys
    | supertype hnew' hv' => exact ⟨_, .supertype hnew' hv', .name hnew hv⟩
    | fields hnew' hv' => exact ⟨_, .fields hnew' hv', .name hnew hv⟩
  | supertype hnew hv =>
    cases h' with
    | name hnew' hv' => exact ⟨_, .name hnew' hv', .supertype hnew hv⟩
    | supertype => exact absurd rfl hkeys
    | fields hnew' hv' => exact ⟨_, .fields hnew' hv', .supertype hnew hv⟩
  | fields hnew hv =>
    cases h' with
    | name hnew' hv' => exact ⟨_, .name hnew' hv', .fields hnew hv⟩
    | supertype hnew' hv' => exact ⟨_, .supertype hnew' hv', .fields hnew hv⟩
    | fields => exact absurd rfl hkeys

theorem look_of_adds (h : Adds s entry t) : look entry.1 s entry.2 = .ok t := by
  cases h with
  | name hnew hv => simp [look, hv]
  | supertype hnew hv => simp [look, hv]
  | fields hnew hv => simp [look, hv]

theorem ofMember_of_adds (h : Adds s entry t) :
    TypeDefinition.record.ofMember look s entry = .ok t := by
  rw [← look_of_adds h]
  cases h with
  | name hnew hv => simp [Record.ofMember, TypeDefinition.record, hnew]
  | supertype hnew hv => simp [Record.ofMember, TypeDefinition.record, hnew]
  | fields hnew hv => simp [Record.ofMember, TypeDefinition.record, hnew]

/-- Members add what they add one after the other. -/
inductive AddsAll : TypeParts → List (String × Value) → TypeParts → Prop where
  /-- no member adds nothing -/
  | nil {parts : TypeParts} : AddsAll parts [] parts
  /-- the first member, then the others -/
  | cons {s t u : TypeParts} {entry : String × Value} {entries : List (String × Value)}
      (hfirst : Adds s entry t) (hmore : AddsAll t entries u) : AddsAll s (entry :: entries) u

variable {entries entries' : List (String × Value)}

/-- Members behind others add to what those have added. -/
theorem AddsAll.append (h : AddsAll s entries t) (h' : AddsAll t entries' u) :
    AddsAll s (entries ++ entries') u := by
  induction h with
  | nil => exact h'
  | cons hfirst _ ih => exact .cons hfirst (ih h')

/-- Members with different keys add the same in any order. -/
theorem AddsAll.perm (hperm : entries.Perm entries') (hkeys : (entries.map (·.1)).Nodup)
    (h : AddsAll s entries t) : AddsAll s entries' t := by
  induction hperm generalizing s with
  | nil => exact h
  | cons entry _ ih =>
    cases h with
    | cons hfirst hmore => exact .cons hfirst (ih (List.nodup_cons.mp hkeys).2 hmore)
  | swap entry entry' entries =>
    obtain ⟨hne, -⟩ := List.nodup_cons.mp hkeys
    cases h with
    | cons hfirst hmore =>
      cases hmore with
      | cons hsecond hmore =>
        obtain ⟨_, hsecond, hfirst⟩ := hfirst.swap (List.ne_of_not_mem_cons hne) hsecond
        exact .cons hsecond (.cons hfirst hmore)
  | trans hperm _ ih ih' => exact ih' ((hperm.map _).nodup hkeys) (ih hkeys h)

/-- Looking at members one after the other gives what they add. -/
theorem foldlM_of_addsAll (h : AddsAll s entries t) :
    entries.foldlM (TypeDefinition.record.ofMember look) s = .ok t := by
  induction h with
  | nil => rfl
  | cons hfirst _ ih => rw [List.foldlM_cons, ofMember_of_adds hfirst, ok_bind, ih]

/-- In a list, members add what they add if they are the first parts in their order. -/
theorem ofItems_of_addsAll {parts : List (Json.Part TypeParts)} (h : AddsAll s entries t)
    (hkeys : entries.map (·.1) <+: parts.map (·.name)) :
    Record.ofItems look s parts (entries.map (·.2)) = .ok t := by
  induction h generalizing parts with
  | nil => cases parts <;> rfl
  | cons hfirst _ ih =>
    cases parts with
    | nil => simp at hkeys
    | cons part parts =>
      obtain ⟨hname, hkeys⟩ := List.cons_prefix_cons.mp hkeys
      change _ = part.name at hname
      rw [List.map_cons, Record.ofItems, ← hname, look_of_adds hfirst, ok_bind, ih hkeys]

end TypeParts

/-! ## Types -/

/-- An optional name adds itself, or nothing, whatever name the type has. -/
theorem addsAll_of_isOptionalName {members : List (String × Value)} {supertype : Option String}
    (h : IsOptionalName "extends" members supertype) (name : Option String) :
    ∃ given, TypeParts.AddsAll ⟨name, none, none⟩ members ⟨name, given, none⟩ ∧
      given.getD none = supertype := by
  cases h with
  | absent => exact ⟨none, .nil, rfl⟩
  | null => exact ⟨some none, .cons (.supertype rfl rfl) .nil, rfl⟩
  | @name supertype => exact ⟨some (some supertype), .cons (.supertype rfl rfl) .nil, rfl⟩

/-- The fields, where they are given, are added to any name and supertype. -/
theorem addsAll_of_isFieldsMember {members : List (String × Value)}
    {fields : List FieldDefinition} (h : IsFieldsMember members fields) (name : Option String)
    (supertype : Option (Option String)) :
    ∃ given, TypeParts.AddsAll ⟨name, supertype, none⟩ members ⟨name, supertype, given⟩ ∧
      given.getD [] = fields := by
  cases h with
  | absent => exact ⟨none, .nil, rfl⟩
  | list hitems =>
    have hlook := mapM_of_forall₂ (hitems.imp fun _ _ => FieldDefinition.ofValue_of_isField)
    exact ⟨some fields, .cons (.fields rfl hlook) .nil, rfl⟩

/-- The members in their usual order add the parts of the definition. -/
theorem addsAll_of_isTypeMembers {declared : List (String × Value)} {definition : TypeDefinition}
    (h : IsTypeMembers declared definition) :
    ∃ parts, TypeParts.AddsAll TypeDefinition.record.initial declared parts ∧
      TypeDefinition.record.complete parts = .ok definition := by
  obtain @⟨_, _, name, _, _, hextends, hfields⟩ := h
  obtain ⟨supertype, hsupertype, rfl⟩ := addsAll_of_isOptionalName hextends (some name)
  obtain ⟨fields, hdeclared, rfl⟩ := addsAll_of_isFieldsMember hfields (some name) supertype
  exact ⟨_, .cons (.name rfl rfl) (hsupertype.append hdeclared), rfl⟩

/-- A type gives no key twice. -/
theorem nodup_keys_of_isTypeMembers {declared : List (String × Value)}
    {definition : TypeDefinition} (h : IsTypeMembers declared definition) :
    (declared.map (·.1)).Nodup := by
  obtain ⟨hextends, hfields⟩ := h
  cases hextends <;> cases hfields <;> simp

/-- Every value that spells a type is looked at as that type. -/
theorem TypeDefinition.ofValue_of_isType {v : Value} {definition : TypeDefinition}
    (h : IsType v definition) : TypeDefinition.ofValue v = .ok definition := by
  cases h with
  | object hdeclared hmembers =>
    obtain ⟨parts, hparts, hcomplete⟩ := addsAll_of_isTypeMembers hdeclared
    have hadds := hparts.perm hmembers.symm (nodup_keys_of_isTypeMembers hdeclared)
    rw [TypeDefinition.ofValue, Record.ofValue, TypeParts.foldlM_of_addsAll hadds, ok_bind,
      hcomplete]
  | list hdeclared hkeys =>
    obtain ⟨parts, hparts, hcomplete⟩ := addsAll_of_isTypeMembers hdeclared
    have hitems : Record.ofItems TypeParts.look TypeDefinition.record.initial
        TypeDefinition.record.parts _ = .ok parts := TypeParts.ofItems_of_addsAll hparts hkeys
    rw [TypeDefinition.ofValue, Record.ofValue, hitems, ok_bind, hcomplete]

/-! ## Documents -/

/-- Every value that spells definitions is looked at as those definitions. -/
theorem definitionsOfValue_of_isDefinitions {doc : Value} {definitions : List TypeDefinition}
    (h : IsDefinitions doc definitions) : definitionsOfValue doc = .ok definitions := by
  have hlook {items : List Value} (htypes : List.Forall₂ IsType items definitions) :
      lookTypes "types" none (.list items) = .ok (some definitions) := by
    have hitems := mapM_of_forall₂ (htypes.imp fun _ _ => TypeDefinition.ofValue_of_isType)
    rw [lookTypes, Value.asList, hitems]
    rfl
  cases h with
  | object htypes =>
    rw [definitionsOfValue, Record.ofValue, List.foldlM_cons]
    change (lookTypes "types" none (.list _) >>= _) >>= _ = _
    rw [hlook htypes]
    rfl
  | list htypes =>
    rw [definitionsOfValue, Record.ofValue]
    change (lookTypes "types" none (.list _) >>= _) >>= _ = _
    rw [hlook htypes]
    rfl

/-! ## Depth -/

section Depth

variable {levels : Nat} {members : List (String × Value)}

theorem nestedWithin_of_isOptionalName {key : String} {name : Option String}
    (h : IsOptionalName key members name) : ∀ entry ∈ members, entry.2.NestedWithin levels := by
  cases h with
  | absent => exact List.forall_mem_nil _
  | null => exact List.forall_mem_singleton.mpr .null
  | name => exact List.forall_mem_singleton.mpr .text

theorem nestedWithin_of_isField {v : Value} {field : FieldDefinition} (h : IsField v field) :
    v.NestedWithin (levels + 1) := by
  cases h with
  | bare => exact .text
  | object hnested hmembers =>
    refine .object fun entry hentry => ?_
    rcases List.mem_cons.mp (hmembers.mem_iff.mp hentry) with rfl | hentry
    · exact .text
    · exact nestedWithin_of_isOptionalName hnested entry hentry

theorem nestedWithin_of_forall₂ {α : Type} {rule : Value → α → Prop} {items : List Value}
    {as : List α} (hrule : ∀ v a, rule v a → v.NestedWithin levels)
    (h : List.Forall₂ rule items as) : (Value.list items).NestedWithin (levels + 1) :=
  .list ((List.forall₂_and_left items as).mp (h.imp fun v a hv => ⟨hrule v a hv, hv⟩)).1

theorem nestedWithin_of_isFieldsMember {fields : List FieldDefinition}
    (h : IsFieldsMember members fields) : ∀ entry ∈ members, entry.2.NestedWithin (levels + 2) := by
  cases h with
  | absent => exact List.forall_mem_nil _
  | list hitems =>
    have hlist : Value.NestedWithin (levels + 2) (.list _) :=
      nestedWithin_of_forall₂ (fun _ _ => nestedWithin_of_isField) hitems
    exact List.forall_mem_singleton.mpr hlist

theorem nestedWithin_of_isTypeMembers {definition : TypeDefinition}
    (h : IsTypeMembers members definition) :
    ∀ entry ∈ members, entry.2.NestedWithin (levels + 2) := by
  obtain ⟨hextends, hfields⟩ := h
  exact List.forall_mem_cons.mpr ⟨.text, List.forall_mem_append.mpr
    ⟨nestedWithin_of_isOptionalName hextends, nestedWithin_of_isFieldsMember hfields⟩⟩

/-- A type is nested three levels deep at most. -/
theorem nestedWithin_of_isType {v : Value} {definition : TypeDefinition}
    (h : IsType v definition) : v.NestedWithin (levels + 3) := by
  cases h with
  | object hdeclared hmembers =>
    exact .object fun entry hentry =>
      nestedWithin_of_isTypeMembers hdeclared entry (hmembers.mem_iff.mp hentry)
  | list hdeclared _ =>
    exact .list (List.forall_mem_map.mpr (nestedWithin_of_isTypeMembers hdeclared))

/-- Definitions are nested five levels deep at most. -/
theorem nestedWithin_of_isDefinitions {doc : Value} {definitions : List TypeDefinition}
    (h : IsDefinitions doc definitions) : doc.NestedWithin (levels + 5) := by
  have hlist {items : List Value} (htypes : List.Forall₂ IsType items definitions) :
      Value.NestedWithin (levels + 4) (.list items) :=
    nestedWithin_of_forall₂ (fun _ _ => nestedWithin_of_isType) htypes
  cases h with
  | object htypes => exact .object (List.forall_mem_singleton.mpr (hlist htypes))
  | list htypes => exact .list (List.forall_mem_singleton.mpr (hlist htypes))

end Depth

/-- A text that spells definitions is read as these definitions. -/
theorem readDefinitions_of_text {text : String} {definitions : List TypeDefinition}
    (h : IsDefinitionsText text.toList definitions) : readDefinitions text = .ok definitions := by
  obtain ⟨htext, hdoc⟩ := h
  have hwhole := document_of_isDocument htext
    (nestedWithin_of_isDefinitions hdoc : Value.NestedWithin documentLevels _)
  rw [readDefinitions_eq hwhole, definitionsOfValue_of_isDefinitions hdoc]

/-! ## The plain document -/

/-- The value whose text is the plain text of a field. -/
def FieldDefinition.plainValue (field : FieldDefinition) : Value :=
  match field.nested with
  | none => .text field.name
  | some typeName => .object [("name", .text field.name), ("nested", .text typeName)]

/-- The members of the object whose text is the plain text of a type. -/
def TypeDefinition.plainMembers (definition : TypeDefinition) : List (String × Value) :=
  ("name", .text definition.name) ::
    ((definition.supertype.map fun supertype => ("extends", .text supertype)).toList ++
      [("fields", .list (definition.fields.map FieldDefinition.plainValue))])

theorem FieldDefinition.isField_plainValue (field : FieldDefinition) :
    IsField field.plainValue field := by
  obtain ⟨name, nested⟩ := field
  cases nested with
  | none => exact .bare
  | some typeName => exact .object .name (.refl _)

theorem FieldDefinition.isValue_write (field : FieldDefinition) :
    IsValue field.write field.plainValue := by
  obtain ⟨name, nested⟩ := field
  cases nested with
  | none => exact .text (isString_writeString name)
  | some typeName =>
    exact isValue_writeObject (.cons (.intro "name" (.text (isString_writeString name)))
      (.cons (.intro "nested" (.text (isString_writeString typeName))) .nil))

/-- The plain members are a spelling of their definition. -/
theorem TypeDefinition.isTypeMembers_plainMembers (definition : TypeDefinition) :
    IsTypeMembers definition.plainMembers definition := by
  obtain ⟨name, supertype, fields⟩ := definition
  have hfields : List.Forall₂ IsField (fields.map FieldDefinition.plainValue) fields :=
    List.forall₂_map_left_iff.mpr
      (List.forall₂_same.mpr fun field _ => field.isField_plainValue)
  cases supertype with
  | none => exact .intro .absent (.list hfields)
  | some supertype => exact .intro .name (.list hfields)

theorem TypeDefinition.isValue_write (definition : TypeDefinition) :
    IsValue definition.write (.object definition.plainMembers) := by
  obtain ⟨name, supertype, fields⟩ := definition
  have hname := IsValue.text (isString_writeString name)
  have hfields := isValue_writeList_map FieldDefinition.isValue_write fields
  cases supertype with
  | none =>
    exact isValue_writeObject (.cons (.intro "name" hname) (.cons (.intro "fields" hfields) .nil))
  | some supertype =>
    have hsupertype := IsValue.text (isString_writeString supertype)
    exact isValue_writeObject (.cons (.intro "name" hname)
      (.cons (.intro "extends" hsupertype) (.cons (.intro "fields" hfields) .nil)))

/-- The plain document is a spelling of its definitions. -/
theorem isDefinitionsText_write (definitions : List TypeDefinition) :
    IsDefinitionsText (writeDefinitions definitions).toList definitions := by
  have htypes : List.Forall₂ IsType
      (definitions.map fun definition => .object definition.plainMembers) definitions :=
    List.forall₂_map_left_iff.mpr <| List.forall₂_same.mpr fun definition _ =>
      .object definition.isTypeMembers_plainMembers (.refl _)
  have hwritten := isValue_writeList_map TypeDefinition.isValue_write definitions
  have hobject : IsValue
      (writeObject [("types", writeList (definitions.map TypeDefinition.write))])
      (.object [("types", .list _)]) := isValue_writeObject (.cons (.intro "types" hwritten) .nil)
  have hdocument := IsDocument.intro isSpace_nil hobject isSpace_nil
  refine .intro ?_ (.object htypes)
  rw [writeDefinitions, String.toList_ofList]
  simpa using hdocument

/-! ## Registries -/

/-- **Spellings of definitions.** Every text that spells a list of type definitions makes the
registry of that list, or fails as the list does. In particular the plain document of the list
does. -/
theorem Registry.ofDocument_spellings (definitions : List TypeDefinition) :
    (∀ text : String, IsDefinitionsText text.toList definitions →
      (Registry.ofDocument text : Except LoadFault (Registry τ)) =
        (Registry.ofDefinitions definitions).mapError .invalid) ∧
    (Registry.ofDocument (writeDefinitions definitions) : Except LoadFault (Registry τ)) =
      (Registry.ofDefinitions definitions).mapError .invalid :=
  ⟨fun _ h => ofDocument_eq (readDefinitions_of_text h),
    ofDocument_eq (readDefinitions_of_text (isDefinitionsText_write definitions))⟩

/-- A type that extends another one and has a field. -/
def mixedDefinitions : List TypeDefinition :=
  [⟨"A", none, []⟩, ⟨"B", some "A", [⟨"c", none⟩]⟩]

/-- A text that spells them in another way than the plain document at every choice. -/
def mixedSpelling : String :=
  String.ofList <| [' ', '\n'] ++ writeList [writeList
    [writeList [['"', '\\', 'u', '0', '0', '4', '1', '"']],
     writeObject
      [("fields", writeList
          [writeObject [("nested", ['n', 'u', 'l', 'l']), ("name", writeString "c")]]),
       ("extends", writeString "A"),
       ("name", writeString "B")]]] ++ ['\t']

theorem isDefinitionsText_mixedSpelling :
    IsDefinitionsText mixedSpelling.toList mixedDefinitions := by
  have hplain (s : String) : IsValue (writeString s) (.text s) := .text (isString_writeString s)
  have hdigits : IsUnit ['0', '0', '4', '1'] 0x41 := by
    have hunit : IsUnit ['0', '0', '4', '1'] (((0 * 16 + 0) * 16 + 4) * 16 + 1) :=
      .intro rfl rfl rfl rfl
    exact hunit
  have hescaped : IsCharacter ['\\', 'u', '0', '0', '4', '1'] 'A' := .unit hdigits
  have hfirst := isValue_writeList (.cons (.text (.intro (.cons hescaped .nil))) .nil)
  have hfield := isValue_writeObject
    (.cons (.intro "nested" .null) (.cons (.intro "name" (hplain "c")) .nil))
  have hfields := isValue_writeList (.cons hfield .nil)
  have hsecond := isValue_writeObject (.cons (.intro "fields" hfields)
    (.cons (.intro "extends" (hplain "A")) (.cons (.intro "name" (hplain "B")) .nil)))
  have htypes := isValue_writeList (.cons hfirst (.cons hsecond .nil))
  have hbefore : IsSpace [' ', '\n'] := by decide
  have hafter : IsSpace ['\t'] := by decide
  rw [mixedSpelling, String.toList_ofList]
  refine .intro (.intro hbefore (isValue_writeList (.cons htypes .nil)) hafter)
    (.list (.cons (.list (.intro .absent .absent) ?_) (.cons ?_ .nil)))
  · decide
  · have hfield : IsField (.object [("nested", .null), ("name", .text "c")]) ⟨"c", none⟩ :=
      .object .null (.swap _ _ _)
    have hdeclared : IsTypeMembers _ ⟨"B", some "A", [⟨"c", none⟩]⟩ :=
      .intro .name (.list (.cons hfield .nil))
    exact .object hdeclared (List.reverse_perm [_, _, _])

/-- Two texts of the same definitions. -/
theorem Registry.ofDocument_mixedSpelling :
    mixedSpelling ≠ writeDefinitions mixedDefinitions ∧
      (Registry.ofDocument mixedSpelling : Except LoadFault (Registry Empty)) =
        Registry.ofDocument (writeDefinitions mixedDefinitions) :=
  ⟨by decide, ((Registry.ofDocument_spellings mixedDefinitions).1 _
    isDefinitionsText_mixedSpelling).trans (Registry.ofDocument_spellings mixedDefinitions).2.symm⟩

end FilterScope
