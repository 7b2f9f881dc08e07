import FilterScope.Message.Document
import FilterScope.Message.Grammar
import FilterScope.Proofs.Json.Seen
import FilterScope.Proofs.Json.Spelling
import FilterScope.Proofs.Json.Writer
import FilterScope.Proofs.Message.Template

/-!
# Catalogs from documents

A document is read as entries if and only if it spells them (`Catalog.document_eq_ok_iff`). What the
catalog of a document holds is then a matter of its entries alone (`Catalog.Overlays`): the last
template of each key that they give, the English one of each kind of violation whose key they do not
give, and nothing else.

So a catalog that was read has a template for every violation. It is also determined by its own
entries, because putting them into the English catalog leaves no English template that was replaced:
any document of them, be it the plain one or another, is read as the same catalog.
-/

namespace FilterScope.Catalog

open Json Reader

/-! ## Reading entries -/

/-- The member of an object that spells an entry. -/
def memberOf (entry : String × String) : String × Value :=
  (entry.1, .text entry.2)

/-- What a member adds to the entries before it. -/
def lookEntry (before : List (String × String)) (member : String × Value) :
    Except Fault (List (String × String)) :=
  (fun template => before ++ [(member.1, template)]) <$> member.2.asText

/-- The entries of a catalog are seen in an object. -/
theorem sees_entries : entries.Sees 1 (Value.asObject lookEntry []) := by
  refine MembersSeen.object ⟨nofun, fun {before key read} h => ?_⟩
  cases h
  exact (sees_string 0).map fun template => before ++ [(key, template)]

/-- Members that are entries are added at the end. -/
theorem foldlM_lookEntry (new before : List (String × String)) :
    (new.map memberOf).foldlM lookEntry before = .ok (before ++ new) := by
  induction new generalizing before with
  | nil => rw [List.append_nil]; rfl
  | cons entry new ih =>
    have hlook : lookEntry before (memberOf entry) = .ok (before ++ [entry]) := rfl
    rw [List.map_cons, List.foldlM_cons, hlook, ok_bind, ih, List.append_assoc,
      List.singleton_append]

/-- What is added at the end are entries, one for each member. -/
theorem exists_of_foldlM_lookEntry {members : List (String × Value)}
    {before all : List (String × String)} (h : members.foldlM lookEntry before = .ok all) :
    ∃ new, members = new.map memberOf ∧ all = before ++ new := by
  induction members generalizing before with
  | nil =>
    cases h
    exact ⟨[], rfl, (List.append_nil _).symm⟩
  | cons member members ih =>
    obtain ⟨key, v⟩ := member
    rw [List.foldlM_cons] at h
    obtain ⟨after, hlook, hmore⟩ := bind_eq_ok.mp h
    cases v with
    | text template =>
      cases hlook
      obtain ⟨new, rfl, rfl⟩ := ih hmore
      exact ⟨(key, template) :: new, rfl, by simp⟩
    | _ => cases hlook

variable {given : List (String × String)}

/-- A value lists entries if and only if it is the object of them. -/
theorem asObject_eq_ok_iff {v : Value} :
    Value.asObject lookEntry [] v = .ok given ↔ v = .ofEntries given := by
  constructor
  · intro h
    cases v with
    | object members =>
      obtain ⟨new, rfl, hgiven⟩ := exists_of_foldlM_lookEntry h
      rw [hgiven]
      rfl
    | _ => cases h
  · rintro rfl
    exact foldlM_lookEntry given []

theorem numberFree_ofEntries : (Value.ofEntries given).NumberFree :=
  .object (List.forall_mem_map.mpr fun _ _ => .text)

theorem nestedWithin_ofEntries : (Value.ofEntries given).NestedWithin 1 :=
  .object (List.forall_mem_map.mpr fun _ _ => .text)

/-- A text is read as the entries that it spells. -/
theorem document_eq_ok_iff {text : String} :
    entries.document text = .ok given ↔ IsEntriesText text.toList given := by
  constructor
  · intro h
    obtain ⟨v, hwhole⟩ := sees_entries.exists_whole h
    obtain rfl := asObject_eq_ok_iff.mp ((sees_entries.document_eq hwhole).symm.trans h)
    exact isDocument_of_document hwhole numberFree_ofEntries
  · intro h
    rw [sees_entries.document_eq (document_of_isDocument h nestedWithin_ofEntries)]
    exact asObject_eq_ok_iff.mpr rfl

variable {catalog : Catalog}

/-- A document makes a catalog if and only if it spells entries, which overlay the English ones. -/
theorem ofDocument_eq_ok_iff {text : String} :
    ofDocument text = .ok catalog ↔
      ∃ given, IsEntriesText text.toList given ∧ catalog = ofEntries given := by
  simp only [← document_eq_ok_iff]
  rw [ofDocument]
  cases entries.document text with
  | error fault => simp [Except.map]
  | ok given => simp [Except.map, eq_comm]

/-! ## What a catalog holds -/

/-- A catalog holds the last templates of entries, over the English ones. -/
structure Overlays (catalog : Catalog) (given : List (String × String)) : Prop where
  /-- under a key of the entries, the last template that they give for it -/
  last : ∀ {before after : List (String × String)} {key template : String},
    given = before ++ (key, template) :: after → key ∉ after.map (·.1) →
      catalog.template? key = some template
  /-- under another key of a kind of violation, the English template -/
  english : ∀ kind : ViolationKind, kind.key ∉ given.map (·.1) →
    catalog.template? kind.key = some (englishTemplate kind)
  /-- under no other key anything -/
  nothing : ∀ key, key ∉ given.map (·.1) → (∀ kind : ViolationKind, key ≠ kind.key) →
    catalog.template? key = none

/-- What is found after entries were put in one after the other: the last one of the key. -/
theorem template?_insertMany (catalog : Catalog) (given : List (String × String)) (key : String) :
    (catalog.insertMany given).template? key =
      ((given.reverse.find? (·.1 = key)).map (·.2)).or (catalog.template? key) := by
  induction given generalizing catalog with
  | nil => rfl
  | cons first more ih =>
    have hstep : (catalog.insertMany (first :: more)).template? key =
        ((more.reverse.find? (·.1 = key)).map (·.2)).or
          ((catalog.insert first.1 first.2).template? key) := ih _
    rw [hstep, template?_insert, List.reverse_cons, List.find?_append, Option.map_or,
      Option.or_assoc]
    congr 1
    by_cases hkey : first.1 = key <;> simp [hkey]

/-- A key that is not given keeps its template. -/
theorem template?_insertMany_of_notMem {key : String} (h : key ∉ given.map (·.1)) :
    (catalog.insertMany given).template? key = catalog.template? key := by
  have hnone : given.reverse.find? (·.1 = key) = none := by
    refine List.find?_eq_none.mpr fun entry hentry hkey => h ?_
    exact List.mem_map.mpr ⟨entry, List.mem_reverse.mp hentry, of_decide_eq_true hkey⟩
  rw [template?_insertMany, hnone]
  rfl

/-- Of the templates that are given for a key, the last counts. -/
theorem template?_insertMany_append {before after : List (String × String)} {key template : String}
    (h : key ∉ after.map (·.1)) :
    (catalog.insertMany (before ++ (key, template) :: after)).template? key = some template := by
  have happend : catalog.insertMany (before ++ (key, template) :: after) =
      ((catalog.insertMany before).insert key template).insertMany after :=
    List.foldl_append
  rw [happend, template?_insertMany_of_notMem h, template?_insert, if_pos rfl]

/-- The English catalog has a template for every kind of violation. -/
theorem template?_english (kind : ViolationKind) :
    english.template? kind.key = some (englishTemplate kind) := by
  rw [english, template?_insertMany]
  cases kind <;> rfl

/-- The English catalog has no other template. -/
theorem template?_english_eq_none {key : String} (h : ∀ kind : ViolationKind, key ≠ kind.key) :
    english.template? key = none := by
  have hnotMem : key ∉ (List.map (·.1) ([.syntaxError, .unknownField, .missingNestedSelector].map
      fun kind : ViolationKind => (kind.key, englishTemplate kind))) := by
    simp [h]
  rw [english, template?_insertMany_of_notMem hnotMem]
  exact Std.ExtTreeMap.getElem?_empty

/-- The catalog of entries is the English one with the entries laid over it. -/
theorem overlays_ofEntries (given : List (String × String)) : (ofEntries given).Overlays given where
  last := by
    rintro before after key template rfl hlast
    exact template?_insertMany_append hlast
  english kind hkey := (template?_insertMany_of_notMem hkey).trans (template?_english kind)
  nothing key hkey hkinds :=
    (template?_insertMany_of_notMem hkey).trans (template?_english_eq_none hkinds)

/-- The last entry of a key, and that none of the entries behind it has the key. -/
theorem exists_last_of_mem {key : String} (h : key ∈ given.map (·.1)) :
    ∃ before template after, given = before ++ (key, template) :: after ∧
      key ∉ after.map (·.1) := by
  induction given with
  | nil => simp at h
  | cons entry given ih =>
    by_cases hlater : key ∈ given.map (·.1)
    · obtain ⟨before, template, after, rfl, hafter⟩ := ih hlater
      exact ⟨entry :: before, template, after, rfl, hafter⟩
    · obtain ⟨_, template⟩ := entry
      obtain rfl : key = _ := (List.mem_cons.mp h).resolve_right hlater
      exact ⟨[], template, given, rfl, hlater⟩

namespace Overlays

/-- A template of entries is found under the key of every kind of violation. -/
theorem exists_template? (h : catalog.Overlays given) (kind : ViolationKind) :
    ∃ template, catalog.template? kind.key = some template := by
  by_cases hkey : kind.key ∈ given.map (·.1)
  · obtain ⟨before, template, after, hgiven, hafter⟩ := exists_last_of_mem hkey
    exact ⟨template, h.last hgiven hafter⟩
  · exact ⟨_, h.english kind hkey⟩

/-- Entries determine the catalog that overlays them, if it has a template for every kind. -/
theorem eq_of_entries {other : Catalog} (h : other.Overlays given)
    (hkinds : ∀ kind : ViolationKind, ∃ template, catalog.template? kind.key = some template)
    (hgiven : ∀ key template, (key, template) ∈ given ↔ catalog.template? key = some template) :
    other = catalog := by
  refine ext_template? fun key => ?_
  by_cases hkey : key ∈ given.map (·.1)
  · obtain ⟨before, template, after, hsplit, hafter⟩ := exists_last_of_mem hkey
    have hmem : (key, template) ∈ given := hsplit ▸ List.mem_append_right _ List.mem_cons_self
    rw [h.last hsplit hafter, (hgiven key template).mp hmem]
  · have hnone : catalog.template? key = none := by
      refine Option.eq_none_iff_forall_ne_some.mpr fun template hsome => hkey ?_
      exact List.mem_map.mpr ⟨_, (hgiven key template).mpr hsome, rfl⟩
    refine (h.nothing key hkey ?_).trans hnone.symm
    rintro kind rfl
    obtain ⟨template, htemplate⟩ := hkinds kind
    cases hnone.symm.trans htemplate

end Overlays

/-! ## Writing a catalog -/

/-- The entries of a catalog are its keys with their templates. -/
theorem mem_toList {key template : String} :
    (key, template) ∈ catalog.toList ↔ catalog.template? key = some template :=
  Std.ExtTreeMap.mem_toList_iff_getElem?_eq_some

/-- The plain document of entries. -/
def writeEntries (given : List (String × String)) : String :=
  String.ofList <| writeObject <| given.map fun entry => (entry.1, writeString entry.2)

/-- Entries that are written spell themselves. -/
theorem isEntriesText_writeEntries (given : List (String × String)) :
    IsEntriesText (writeEntries given).toList given := by
  have hmembers : List.Forall₂ IsWrittenMember
      (given.map fun entry => (entry.1, writeString entry.2)) (given.map memberOf) :=
    List.forall₂_map_left_iff.mpr <| List.forall₂_map_right_iff.mpr <| List.forall₂_same.mpr
      fun entry _ => .intro entry.1 (.text (isString_writeString entry.2))
  have hdocument := IsDocument.intro isSpace_nil (isValue_writeObject hmembers) isSpace_nil
  rw [List.nil_append, List.append_nil] at hdocument
  rw [writeEntries, String.toList_ofList]
  exact hdocument

theorem document_eq_writeEntries (catalog : Catalog) :
    catalog.document = writeEntries catalog.toList :=
  rfl

/-- **Catalogs from documents.** Every text that spells an object of strings is read as a catalog
that holds the last template of each key of the object, the English template of each kind of
violation whose key is not among them, and nothing else. Every catalog that is read comes from such
a text. It renders each violation by a template and never by the text of the violation, and each
document of its own entries, in whatever order and spelling, is read as the same catalog again; the
document that it is written as is one of these. -/
theorem ofDocument_overlays :
    (∀ (text : String) given, IsEntriesText text.toList given →
      ∃ catalog, ofDocument text = .ok catalog ∧ catalog.Overlays given) ∧
    ∀ text catalog, ofDocument text = .ok catalog →
      (∃ given, IsEntriesText text.toList given ∧ catalog.Overlays given) ∧
      (∀ violation, ∃ template, catalog.template? violation.key = some template ∧
        catalog.render violation = Template.fill template (arguments violation)) ∧
      (∀ (copy : String) given, IsEntriesText copy.toList given →
        (∀ key template, (key, template) ∈ given ↔ catalog.template? key = some template) →
        ofDocument copy = .ok catalog) ∧
      ofDocument catalog.document = .ok catalog := by
  refine ⟨fun text given htext => ?_, fun text catalog h => ?_⟩
  · exact ⟨_, ofDocument_eq_ok_iff.mpr ⟨given, htext, rfl⟩, overlays_ofEntries given⟩
  · obtain ⟨given, htext, rfl⟩ := ofDocument_eq_ok_iff.mp h
    have hoverlays := overlays_ofEntries given
    have hreread (copy : String) (own : List (String × String))
        (hcopy : IsEntriesText copy.toList own)
        (hown : ∀ key template,
          (key, template) ∈ own ↔ (ofEntries given).template? key = some template) :
        ofDocument copy = .ok (ofEntries given) :=
      ofDocument_eq_ok_iff.mpr ⟨own, hcopy,
        ((overlays_ofEntries own).eq_of_entries hoverlays.exists_template? hown).symm⟩
    refine ⟨⟨given, htext, hoverlays⟩, fun violation => ?_, hreread, ?_⟩
    · obtain ⟨template, htemplate⟩ := hoverlays.exists_template? violation.kind
      exact ⟨template, htemplate, render_of_template? htemplate⟩
    · rw [document_eq_writeEntries]
      exact hreread _ _ (isEntriesText_writeEntries _) fun _ _ => mem_toList

/-- A key that is given twice, and one of no kind of violation. -/
def repeatedEntries : List (String × String) :=
  [(ViolationKind.syntaxError.key, "no"), ("é", ""), (ViolationKind.syntaxError.key, "é%s")]

/-- A text that spells these entries, with an escape. -/
def repeatedSpelling : String :=
  String.ofList <| ' ' :: writeObject
    [(ViolationKind.syntaxError.key, writeString "no"), ("é", writeString ""),
     (ViolationKind.syntaxError.key, ['"', '\\', 'u', '0', '0', 'E', '9', '%', 's', '"'])]

theorem isEntriesText_repeatedSpelling :
    IsEntriesText repeatedSpelling.toList repeatedEntries := by
  have hplain (s : String) : IsValue (writeString s) (.text s) := .text (isString_writeString s)
  have hunit : IsUnit ['0', '0', 'E', '9'] (((0 * 16 + 0) * 16 + 14) * 16 + 9) :=
    .intro rfl rfl rfl rfl
  have hescaped : IsCharacter ['\\', 'u', '0', '0', 'E', '9'] 'é' := .unit hunit
  have hplaceholder : IsCharacters ['%', 's'] ['%', 's'] := isCharacters_flatMap ['%', 's']
  have hobject := isValue_writeObject <|
    .cons (.intro ViolationKind.syntaxError.key (hplain "no")) <|
      .cons (.intro "é" (hplain "")) <|
        .cons (.intro ViolationKind.syntaxError.key
          (.text (.intro (.cons hescaped hplaceholder)))) .nil
  have hspace : IsSpace [' '] := by decide
  have hdocument := IsDocument.intro hspace hobject isSpace_nil
  rw [List.append_nil, List.singleton_append] at hdocument
  rw [repeatedSpelling, String.toList_ofList]
  exact hdocument

theorem ofDocument_overlays_repeated :
    ∃ catalog, ofDocument repeatedSpelling = .ok catalog ∧
      catalog.template? ViolationKind.syntaxError.key = some "é%s" ∧
      catalog.template? ViolationKind.unknownField.key = some (englishTemplate .unknownField) ∧
      catalog.template? "é" = some "" ∧ catalog.template? "e" = none ∧
      ofDocument catalog.document = .ok catalog := by
  obtain ⟨catalog, hcatalog, hoverlays⟩ :=
    ofDocument_overlays.1 repeatedSpelling repeatedEntries isEntriesText_repeatedSpelling
  obtain ⟨-, -, -, hreread⟩ := ofDocument_overlays.2 repeatedSpelling catalog hcatalog
  have hsyntax : repeatedEntries =
      [(ViolationKind.syntaxError.key, "no"), ("é", "")] ++
        (ViolationKind.syntaxError.key, "é%s") :: [] := rfl
  have hother : repeatedEntries = [(ViolationKind.syntaxError.key, "no")] ++
      ("é", "") :: [(ViolationKind.syntaxError.key, "é%s")] := rfl
  refine ⟨catalog, hcatalog, hoverlays.last hsyntax (by decide),
    hoverlays.english .unknownField (by decide), hoverlays.last hother (by decide),
    hoverlays.nothing "e" (by decide) ?_, hreread⟩
  rintro ⟨⟩ <;> decide

end FilterScope.Catalog
