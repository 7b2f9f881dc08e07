import FilterScope.CommandLine.Run
import FilterScope.Proofs.Check.Insertion
import FilterScope.Proofs.CommandLine.Options
import FilterScope.Proofs.Message.Document
import FilterScope.Proofs.Schema.Grammar

/-!
# What is answered to a check

A check is answered by what its files hold, whatever the bytes of the files are. If they load
(`Loads`), the answer is that of the validator. If they do not, or if the type is not defined, there
is no answer and one fault is reported (`Reports`). A fault has its place in an order, the messages
before the type definitions and these before the type, and it is reported only if everything before
it is in order. So at most one fault is reported, and one is reported if and only if there is no
answer.
-/

namespace FilterScope

open File

/-- The bytes of a file are a text if and only if they are its UTF-8. -/
theorem File.Contents.text_eq_ok_iff {contents : Contents} {text : String} :
    contents.text = .ok text ↔ contents = .ok text.toUTF8 := by
  cases contents with
  | error fault => simp [Contents.text]
  | ok bytes =>
    rw [Contents.text, String.fromUTF8?]
    split
    · next hvalid =>
      have hbytes : (String.fromUTF8 bytes hvalid).toUTF8 = bytes := rfl
      constructor
      · intro h
        rw [← Except.ok.inj h, hbytes]
      · intro h
        obtain rfl := Except.ok.inj h
        rfl
    · next hinvalid =>
      constructor
      · nofun
      · intro h
        obtain rfl := Except.ok.inj h
        exact absurd text.isValidUTF8 hinvalid

/-- A type is unknown if it is not registered and the filter is not blank. -/
theorem Validator.check_eq_error_iff {τ : Type} [Described τ] {registry : Registry τ}
    {config : Config} {filter typeName : String} {fault : UnknownType} :
    check ⟨registry, config⟩ filter typeName = .error fault ↔
      Text.isBlankText filter = false ∧ registry.find? typeName = none ∧ fault = ⟨typeName⟩ := by
  cases hfind : registry.find? typeName with
  | some schema => simp [check_of_find? hfind]
  | none =>
    rw [check_of_find?_eq_none hfind]
    cases Text.isBlankText filter <;> simp [eq_comm]

namespace CommandLine

/-! ## Files that load -/

/-- The catalog that a check reports with. -/
inductive LoadsCatalog (files : FileSystem) : Option String → Catalog → Prop where
  /-- without a file, the English one -/
  | english : LoadsCatalog files none .english
  /-- the one of the entries that a file spells -/
  | file {path text : String} {given : List (String × String)}
      (hfile : files path = .ok text.toUTF8) (hgiven : IsEntriesText text.toList given) :
      LoadsCatalog files (some path) (.ofEntries given)

/-- The registry that a check is made in. -/
inductive LoadsRegistry (files : FileSystem) : String → Registry Empty → Prop where
  /-- the one that the text of a file defines -/
  | file {path text : String} {registry : Registry Empty} (hfile : files path = .ok text.toUTF8)
      (hdocument : Registry.ofDocument text = .ok registry) : LoadsRegistry files path registry

/-- The files of a check load. -/
structure Loads (files : FileSystem) (options : Options) (catalog : Catalog)
    (registry : Registry Empty) : Prop where
  /-- the message templates -/
  messages : LoadsCatalog files options.messages catalog
  /-- the type definitions -/
  schema : LoadsRegistry files options.schema registry

/-- The files of a check load, and its filter has an outcome. -/
def Concludes (files : FileSystem) (options : Options) (catalog : Catalog)
    (outcome : Outcome) : Prop :=
  ∃ registry, Loads files options catalog registry ∧
    Validator.check ⟨registry, ⟨options.nestedContext⟩⟩ options.filter options.typeName =
      .ok outcome

section Loading

variable {files : FileSystem} {path : String}

/-- The catalog that is loaded is the one of the file, if there is one. -/
theorem loadCatalog_eq_ok_iff {messages : Option String} {catalog : Catalog} :
    loadCatalog files messages = .ok catalog ↔ LoadsCatalog files messages catalog := by
  constructor
  · intro h
    cases messages with
    | none =>
      cases h
      exact .english
    | some path =>
      rw [loadCatalog] at h
      split at h
      · cases h
      · next hfile =>
        split at h
        · cases h
        · next hdocument =>
          cases h
          obtain ⟨given, hgiven, rfl⟩ := Catalog.ofDocument_eq_ok_iff.mp hdocument
          exact .file (Contents.text_eq_ok_iff.mp hfile) hgiven
  · rintro (_ | ⟨hfile, hgiven⟩)
    · rfl
    · have hdocument := Catalog.ofDocument_eq_ok_iff.mpr ⟨_, hgiven, rfl⟩
      simp only [loadCatalog, Contents.text_eq_ok_iff.mpr hfile, hdocument]

/-- The registry of a file is the one that its text defines. -/
theorem ofFile_eq_ok_iff {registry : Registry Empty} :
    Registry.ofFile (files path) = .ok registry ↔ LoadsRegistry files path registry := by
  constructor
  · intro h
    rw [Registry.ofFile] at h
    split at h
    · cases h
    · next hfile => exact .file (Contents.text_eq_ok_iff.mp hfile) h
  · rintro ⟨hfile, hdocument⟩
    simp only [Registry.ofFile, Contents.text_eq_ok_iff.mpr hfile, hdocument]

/-- The registry that is loaded is the one of the file. -/
theorem loadRegistry_eq_ok_iff {registry : Registry Empty} :
    loadRegistry files path = .ok registry ↔ LoadsRegistry files path registry := by
  rw [← ofFile_eq_ok_iff, loadRegistry]
  split <;> simp_all

end Loading

/-! ## Faults that are reported -/

/-- The fault that is reported of a check. -/
inductive Reports (files : FileSystem) (options : Options) : CheckFault → Prop where
  /-- of messages, that they cannot be read as a text -/
  | unreadableMessages {path : String} {fault : ReadFault} (hpath : options.messages = some path)
      (hfile : (files path).text = .error fault) :
      Reports files options (.unreadableMessages path fault)
  /-- of messages, that their text is no document of entries -/
  | illFormedMessages {path text : String} {fault : Json.Fault}
      (hpath : options.messages = some path) (hfile : files path = .ok text.toUTF8)
      (hdocument : Catalog.ofDocument text = .error fault) :
      Reports files options (.illFormedMessages path fault)
  /-- of type definitions, that they do not load; the messages do -/
  | unloadableSchema {catalog : Catalog} {fault : LoadFault}
      (hmessages : LoadsCatalog files options.messages catalog)
      (hschema : (Registry.ofFile (files options.schema) : Except LoadFault (Registry Empty)) =
        .error fault) :
      Reports files options (.unloadableSchema options.schema fault)
  /-- of the type, that it is not defined; the files load and the filter is not blank -/
  | unknownType {catalog : Catalog} {registry : Registry Empty}
      (hloads : Loads files options catalog registry)
      (hfilter : Text.isBlankText options.filter = false)
      (htype : registry.find? options.typeName = none) :
      Reports files options (.unknownType ⟨options.typeName⟩)

section Checking

variable {files : FileSystem} {options : Options}

/-- A fault in loading the catalog is reported. -/
theorem reports_of_loadCatalog {fault : CheckFault}
    (h : loadCatalog files options.messages = .error fault) : Reports files options fault := by
  cases hpath : options.messages with
  | none =>
    rw [hpath] at h
    cases h
  | some path =>
    rw [hpath, loadCatalog] at h
    split at h
    · next hfile =>
      cases h
      exact .unreadableMessages hpath hfile
    · next hfile =>
      split at h
      · next hdocument =>
        cases h
        exact .illFormedMessages hpath (Contents.text_eq_ok_iff.mp hfile) hdocument
      · cases h

/-- A fault in loading the registry is that of its file. -/
theorem exists_of_loadRegistry {path : String} {fault : CheckFault}
    (h : loadRegistry files path = .error fault) :
    ∃ cause, (Registry.ofFile (files path) : Except LoadFault (Registry Empty)) = .error cause ∧
      fault = .unloadableSchema path cause := by
  rw [loadRegistry] at h
  split at h
  · next cause hcause =>
    cases h
    exact ⟨cause, hcause, rfl⟩
  · cases h

/-- A check has an outcome if and only if its files load and the validator has one. -/
theorem check_eq_ok_iff {catalog : Catalog} {outcome : Outcome} :
    check files options = .ok (catalog, outcome) ↔ Concludes files options catalog outcome := by
  constructor
  · intro h
    rw [check] at h
    split at h
    · cases h
    · next hmessages =>
      split at h
      · cases h
      · next registry hschema =>
        split at h
        · cases h
        · next hcheck =>
          cases h
          exact ⟨registry, ⟨loadCatalog_eq_ok_iff.mp hmessages, loadRegistry_eq_ok_iff.mp hschema⟩,
            hcheck⟩
  · rintro ⟨registry, ⟨hmessages, hschema⟩, hcheck⟩
    simp only [check, loadCatalog_eq_ok_iff.mpr hmessages, loadRegistry_eq_ok_iff.mpr hschema,
      hcheck]

/-- The fault of a check is the one that is reported. -/
theorem check_eq_error_iff {fault : CheckFault} :
    check files options = .error fault ↔ Reports files options fault := by
  constructor
  · intro h
    rw [check] at h
    split at h
    · next hmessages =>
      cases h
      exact reports_of_loadCatalog hmessages
    · next hmessages =>
      split at h
      · next hschema =>
        cases h
        obtain ⟨cause, hcause, rfl⟩ := exists_of_loadRegistry hschema
        exact .unloadableSchema (loadCatalog_eq_ok_iff.mp hmessages) hcause
      · next hschema =>
        split at h
        · next hcheck =>
          cases h
          obtain ⟨hfilter, htype, rfl⟩ := Validator.check_eq_error_iff.mp hcheck
          exact .unknownType ⟨loadCatalog_eq_ok_iff.mp hmessages, loadRegistry_eq_ok_iff.mp hschema⟩
            hfilter htype
        · cases h
  · rintro (⟨hpath, hfile⟩ | ⟨hpath, hfile, hdocument⟩ | ⟨hmessages, hschema⟩ |
      ⟨⟨hmessages, hschema⟩, hfilter, htype⟩)
    · simp only [check, hpath, loadCatalog, hfile]
    · simp only [check, hpath, loadCatalog, Contents.text_eq_ok_iff.mpr hfile, hdocument]
    · simp only [check, loadCatalog_eq_ok_iff.mpr hmessages, loadRegistry, hschema]
    · simp only [check, loadCatalog_eq_ok_iff.mpr hmessages, loadRegistry_eq_ok_iff.mpr hschema,
        Validator.check_eq_error_iff.mpr ⟨hfilter, htype, rfl⟩]

end Checking

/-! ## Reports -/

section Reporting

variable {result : Except CheckFault (Catalog × Outcome)} {output : String}

theorem report_exitCode_eq_zero_iff :
    (report result).exitCode = 0 ↔ ∃ catalog, result = .ok (catalog, .valid) := by
  obtain fault | ⟨catalog, outcome⟩ := result
  · simp [report, Report.failure]
  · cases outcome <;> simp [report, Report.printed]

/-- The exit code 0 and the word for a valid filter are reported for nothing else. -/
theorem report_valid_iff :
    (report result).exitCode = 0 ∧ (report result).output = "valid\n" ↔
      ∃ catalog, result = .ok (catalog, .valid) := by
  rw [report_exitCode_eq_zero_iff]
  refine ⟨And.left, fun h => ⟨h, ?_⟩⟩
  obtain ⟨catalog, rfl⟩ := h
  rfl

/-- The exit code 1 is reported with the words of the catalog for a violation. -/
theorem report_invalid_iff :
    (report result).exitCode = 1 ∧ (report result).output = output ↔
      ∃ catalog violation, result = .ok (catalog, .invalid violation) ∧
        output = catalog.render violation ++ "\n" := by
  obtain fault | ⟨catalog, outcome⟩ := result
  · simp [report, Report.failure]
  · cases outcome <;> simp [report, Report.printed, eq_comm]

/-- The exit code 2 is reported, and nothing printed, if there is no outcome. -/
theorem report_failed_iff :
    (report result).exitCode = 2 ∧ (report result).output = "" ↔
      ¬ ∃ catalog outcome, result = .ok (catalog, outcome) := by
  obtain fault | ⟨catalog, outcome⟩ := result
  · simp [report, Report.failure]
  · cases outcome <;> simp [report, Report.printed]

/-- Only a fault has the exit code 2. -/
theorem report_exitCode_eq_two_iff :
    (report result).exitCode = 2 ↔ ∃ fault, result = .error fault := by
  obtain fault | ⟨catalog, outcome⟩ := result
  · simp [report, Report.failure]
  · cases outcome <;> simp [report, Report.printed]

end Reporting

/-- The check of a blank filter comes down to loading the files. -/
theorem concludes_of_isBlankText {files : FileSystem} {options : Options} {catalog : Catalog}
    (hblank : Text.isBlankText options.filter = true) :
    Concludes files options catalog .valid ↔
      ∃ registry, Loads files options catalog registry := by
  simp [Concludes, Validator.check, hblank]

/-- **What is answered to a check.** A check can be asked for if and only if none of its paths is
empty. For any files and any arguments that ask for it, the program prints that the filter is valid,
with exit code 0, if and only if the files load and the validator finds it valid. It prints what the
catalog makes of a violation, with exit code 1, if and only if the files load and the validator
finds that violation. In every other case, and only then, it prints nothing and exits with code 2;
it then reports the one fault that comes first. A blank filter is valid for any type, if the files
load, and never without. -/
theorem run_check (files : FileSystem) (options : Options) :
    ((∃ arguments, Request.ofArguments arguments = .ok (.check options)) ↔
      options.schema ≠ "" ∧ options.messages ≠ some "") ∧
    ∀ arguments, Request.ofArguments arguments = .ok (.check options) →
      ((run files arguments).exitCode = 0 ∧ (run files arguments).output = "valid\n" ↔
        ∃ catalog, Concludes files options catalog .valid) ∧
      (∀ output, (run files arguments).exitCode = 1 ∧ (run files arguments).output = output ↔
        ∃ catalog violation, Concludes files options catalog (.invalid violation) ∧
          output = catalog.render violation ++ "\n") ∧
      ((run files arguments).exitCode = 2 ∧ (run files arguments).output = "" ↔
        ¬ ∃ catalog outcome, Concludes files options catalog outcome) ∧
      (∀ fault, Reports files options fault → run files arguments = .failure fault.message) ∧
      ((run files arguments).exitCode = 2 ↔ ∃ fault, Reports files options fault) ∧
      (Text.isBlankText options.filter = true →
        ((run files arguments).exitCode = 0 ↔
          ∃ catalog registry, Loads files options catalog registry)) := by
  refine ⟨exists_ofArguments_iff, fun arguments h => ?_⟩
  have hrun : run files arguments = report (check files options) := by
    rw [run, h]
  simp only [hrun, ← check_eq_ok_iff, ← check_eq_error_iff]
  refine ⟨report_valid_iff, fun output => report_invalid_iff, report_failed_iff, ?_,
    report_exitCode_eq_two_iff, fun hblank => ?_⟩
  · intro fault hfault
    rw [hfault, report]
  · simp only [report_exitCode_eq_zero_iff, check_eq_ok_iff, concludes_of_isBlankText hblank]

/-! ### An example -/

/-- One type, with one field. -/
def personDefinitions : List TypeDefinition :=
  [⟨"Person", none, [⟨"age", none⟩]⟩]

/-- A file of type definitions, a file of messages, and no others. -/
def personFiles : FileSystem := fun path =>
  if path = "types" then
    .ok (writeDefinitions personDefinitions).toUTF8
  else if path = "messages" then
    .ok (Catalog.writeEntries [(ViolationKind.unknownField.key, "no %s")]).toUTF8
  else
    .error .missing

/-- The type that the file of the example defines. -/
theorem exists_loadsRegistry_person : ∃ registry, LoadsRegistry personFiles "types" registry ∧
    registry.find? "Person" = some ⟨"Person", [.plain "age"], none⟩ := by
  have hresolvable : Resolvable personDefinitions := .of_references_eq_nil (by decide)
  obtain ⟨registry, h⟩ : ∃ registry : Registry Empty,
      Registry.ofDefinitions personDefinitions = .ok registry :=
    (exists_ofDefinitions_iff (by decide)).mpr hresolvable
  have hfile : personFiles "types" = .ok (writeDefinitions personDefinitions).toUTF8 := rfl
  have hread := readDefinitions_of_text (isDefinitionsText_write personDefinitions)
  have hdocument : Registry.ofDocument (writeDefinitions personDefinitions) = .ok registry := by
    rw [ofDocument_eq hread, h]
    rfl
  refine ⟨registry, .file hfile hdocument, ?_⟩
  obtain ⟨hfaithful, hcomplete⟩ := faithful_and_complete_of_ofDefinitions h
  obtain ⟨⟨name, fields, supertype⟩, hfind, hname, hsupertype, hfields⟩ :=
    hfaithful.find (nodup_of_ofDefinitions h) hcomplete (List.mem_singleton_self _)
  cases hname
  cases hsupertype
  obtain ⟨field, more, hfield, hmore, rfl⟩ := List.forall₂_cons_left_iff.mp hfields
  cases hfield
  cases hmore
  exact hfind

theorem loadsCatalog_person : LoadsCatalog personFiles (some "messages")
    (.ofEntries [(ViolationKind.unknownField.key, "no %s")]) :=
  .file rfl (Catalog.isEntriesText_writeEntries _)

theorem render_person :
    (Catalog.ofEntries [(ViolationKind.unknownField.key, "no %s")]).render
      (.unknownField "name" "Person") = "no name" := by
  have htemplate := (Catalog.overlays_ofEntries
    [(ViolationKind.unknownField.key, "no %s")]).last (List.nil_append _).symm List.not_mem_nil
  rw [Catalog.render_of_template? htemplate]
  rfl

/-- The expression that asks for one value of a field. -/
def asking (name : String) : Filter.Expr :=
  .comparison ⟨⟨name⟩, .equal, ["1"]⟩

/-- A text that asks for one value of a field. -/
theorem parse_asking {name text : String} (hname : name.toList ≠ [])
    (hunreserved : name.toList.all Filter.isUnreserved = true)
    (htext : text.toList = (asking name).chars) : Filter.parse text = .ok (asking name) := by
  have hwellFormed : (asking name).WellFormed :=
    .comparison ⟨hname, List.all_eq_true.mp hunreserved, List.cons_ne_nil _ _, .inr rfl⟩
  exact Filter.parse_of_isFilter (htext ▸ Filter.isFilter_chars hwellFormed)

/-- A valid filter, one for a field that is unknown, a blank one for a type that is unknown, and
one without any of its files. -/
theorem run_check_person :
    ((run personFiles ["--schema=types", "--type", "Person", "age==\"1\""]).exitCode = 0 ∧
      (run personFiles ["--schema=types", "--type", "Person", "age==\"1\""]).output = "valid\n") ∧
    ((run personFiles ["name==\"1\"", "--messages=messages", "--schema=types",
        "--type=Person"]).exitCode = 1 ∧
      (run personFiles ["name==\"1\"", "--messages=messages", "--schema=types",
        "--type=Person"]).output = "no name\n") ∧
    (run personFiles ["--schema=types", "--type=Team", " "]).exitCode = 0 ∧
    run personFiles ["--messages=x", "--schema=x", "--type=Team", "age"] =
      .failure "failed to read x: No such file or directory (os error 2)" := by
  obtain ⟨registry, hregistry, hfind⟩ := exists_loadsRegistry_person
  have hvalid : Request.ofArguments ["--schema=types", "--type", "Person", "age==\"1\""] =
    .ok (.check ⟨"types", "Person", .rootType, none, "age==\"1\""⟩) := rfl
  have hunknown : Request.ofArguments
      ["name==\"1\"", "--messages=messages", "--schema=types", "--type=Person"] =
    .ok (.check ⟨"types", "Person", .rootType, some "messages", "name==\"1\""⟩) := rfl
  have hblank : Request.ofArguments ["--schema=types", "--type=Team", " "] =
    .ok (.check ⟨"types", "Team", .rootType, none, " "⟩) := rfl
  have hmissing : Request.ofArguments ["--messages=x", "--schema=x", "--type=Team", "age"] =
    .ok (.check ⟨"x", "Team", .rootType, some "x", "age"⟩) := rfl
  have hage : Filter.parse "age==\"1\"" = .ok (asking "age") :=
    parse_asking (by decide) (by decide) (by decide)
  have hname : Filter.parse "name==\"1\"" = .ok (asking "name") :=
    parse_asking (by decide) (by decide) (by decide)
  refine ⟨((run_check _ _).2 _ hvalid).1.mpr ?_, (((run_check _ _).2 _ hunknown).2.1 _).mpr ?_,
    ?_, ?_⟩
  · refine ⟨_, registry, ⟨.english, hregistry⟩, ?_⟩
    rw [Validator.check_of_find? hfind, Scope.checkText_of_parse _ hage]
    rfl
  · refine ⟨_, .unknownField "name" "Person", ⟨registry, ⟨loadsCatalog_person, hregistry⟩, ?_⟩, ?_⟩
    · rw [Validator.check_of_find? hfind, Scope.checkText_of_parse _ hname]
      rfl
    · exact (congrArg (· ++ "\n") render_person).symm
  · exact (((run_check _ _).2 _ hblank).2.2.2.2.2 rfl).mpr ⟨_, registry, .english, hregistry⟩
  · exact ((run_check _ _).2 _ hmissing).2.2.2.1 (.unreadableMessages "x" .missing)
      (.unreadableMessages rfl rfl)

end CommandLine

end FilterScope
