import Mathlib.Data.List.DropRight
import FilterScope.Proofs.Check.Findings
import FilterScope.Proofs.Text.Pieces

/-!
# What becomes of a selector

The check of a comparison is told here from its beginning: from the text of the selector, the fields
that a type shows, and where the schema of a nested object is to be had.

* **Segments** (`Selector.IsFollowedBy`). The text is the segments with a dot between each two; dots
  at its end ask for nothing. Dots anywhere else count, so a segment may be empty.
* **Fields** (`Schema.Shows`). A type shows the first of its visible fields with a name.
* **Nested objects** (`Nested.Available`). A schema is there, except for a type that is looked up by
  name where nothing is found.

`Scope.Answers` lists what becomes of a selector in each case. The cases exclude each other and
leave none out, because the check has one outcome and it is theirs (`check_comparison_eq_iff`).
-/

namespace FilterScope

open FilterScope.Filter FilterScope.Text

variable {τ : Type}

/-! ## Segments -/

/-- A selector is followed by a first segment and by those after it. -/
structure Filter.Selector.IsFollowedBy (selector : Selector) (first : String) (more : List String) :
    Prop where
  /-- the text has a dot between each two segments, and nothing but dots behind the last one -/
  text_eq : ∃ dots, selector.text.toList =
    ['.'].intercalate ((first :: more).map String.toList) ++ List.replicate dots '.'
  /-- no segment goes beyond a dot -/
  no_dot : ∀ segment ∈ first :: more, '.' ∉ segment.toList
  /-- the last segment is not empty, unless it is the first -/
  last : ∀ hne : more ≠ [], more.getLast hne ≠ ""

/-- What is left of a list without the empty texts at its end. -/
theorem rdropWhile_eq_iff {names kept : List String} :
    names.rdropWhile (· == "") = kept ↔
      (∃ n, names = kept ++ List.replicate n "") ∧ ∀ hne : kept ≠ [], kept.getLast hne ≠ "" := by
  constructor
  · rintro rfl
    have hempty : names.rtakeWhile (· == "") =
        List.replicate (names.rtakeWhile (· == "")).length "" :=
      List.eq_replicate_of_mem fun name hname => by simpa using List.mem_rtakeWhile_imp hname
    refine ⟨⟨(names.rtakeWhile (· == "")).length, ?_⟩, fun hne => ?_⟩
    · rw [← hempty, List.rdropWhile_append_rtakeWhile]
    · simpa using List.rdropWhile_last_not (· == "") names hne
  · rintro ⟨⟨n, rfl⟩, hlast⟩
    induction n with
    | zero =>
      rw [List.replicate_zero, List.append_nil, List.rdropWhile_eq_self_iff]
      simpa using hlast
    | succ n ih =>
      rw [List.replicate_succ', ← List.append_assoc, List.rdropWhile_concat_pos _ _ _ rfl, ih]

namespace Filter.Selector

variable {selector : Selector} {first : String} {more : List String}

/-- The path of a selector is its segments without the empty ones at their end. -/
theorem path_eq_iff_segments :
    selector.path = first :: more ↔
      (∃ n, selector.segments = first :: more ++ List.replicate n "") ∧
        ∀ hne : more ≠ [], more.getLast hne ≠ "" := by
  obtain ⟨head, tail, hsegments⟩ : ∃ head tail, selector.segments = head :: tail :=
    List.exists_cons_of_ne_nil (by simp [segments, cutAt_ne_nil])
  have hpath : selector.path = head :: tail.rdropWhile (· == "") := by
    rw [path, hsegments]
    rfl
  rw [hpath, hsegments, List.cons.injEq, rdropWhile_eq_iff]
  simp only [List.cons_append, List.cons.injEq]
  constructor
  · rintro ⟨rfl, ⟨n, rfl⟩, hlast⟩
    exact ⟨⟨n, rfl, rfl⟩, hlast⟩
  · rintro ⟨⟨n, rfl, rfl⟩, hlast⟩
    exact ⟨rfl, ⟨n, rfl⟩, hlast⟩

/-- The segments are these if the text is made of them. -/
theorem segments_eq_iff {names : List String} (hne : names ≠ []) :
    selector.segments = names ↔
      selector.text.toList = ['.'].intercalate (names.map String.toList) ∧
        ∀ segment ∈ names, '.' ∉ segment.toList := by
  have hlists : selector.segments = names ↔
      cutAt '.' selector.text.toList = names.map String.toList := by
    rw [segments]
    constructor
    · rintro rfl
      simp
    · intro h
      rw [h]
      simp
  rw [hlists]
  constructor
  · intro h
    refine ⟨by rw [← h, intercalate_cutAt], fun segment hsegment => ?_⟩
    have hpiece : segment.toList ∈ cutAt '.' selector.text.toList :=
      h ▸ List.mem_map_of_mem hsegment
    exact not_mem_of_mem_cutAt hpiece
  · rintro ⟨htext, hdot⟩
    rw [htext]
    exact cutAt_intercalate (by simpa using hne) (List.forall_mem_map.mpr hdot)

/-- The segments that the check looks at are those by which the selector is followed. -/
theorem path_eq_iff : selector.path = first :: more ↔ selector.IsFollowedBy first more := by
  have htext (n : Nat) :
      ['.'].intercalate ((first :: more ++ List.replicate n "").map String.toList) =
        ['.'].intercalate ((first :: more).map String.toList) ++ List.replicate n '.' := by
    rw [List.map_append, List.map_replicate]
    exact intercalate_append_replicate first.toList (more.map String.toList) n
  rw [path_eq_iff_segments]
  constructor
  · rintro ⟨⟨n, hsegments⟩, hlast⟩
    obtain ⟨heq, hdot⟩ := (segments_eq_iff (by simp)).mp hsegments
    exact ⟨⟨n, heq.trans (htext n)⟩, fun segment hsegment => hdot segment
      (List.mem_append_left _ hsegment), hlast⟩
  · rintro ⟨⟨n, heq⟩, hdot, hlast⟩
    refine ⟨⟨n, (segments_eq_iff (by simp)).mpr ⟨heq.trans (htext n).symm, ?_⟩⟩, hlast⟩
    intro segment hsegment
    rcases List.mem_append.mp hsegment with hsegment | hsegment
    · exact hdot segment hsegment
    · rw [List.eq_of_mem_replicate hsegment]
      exact List.not_mem_nil

end Filter.Selector

/-! ## Fields and nested objects -/

/-- A type shows a field under a name: no field that is visible before it has the name. -/
structure Schema.Shows (schema : Schema τ) (name : String) (found : VisibleField τ) : Prop where
  /-- the field has the name -/
  named : found.field.name = name
  /-- it is the first one that does -/
  first : ∃ before after, schema.visible = before ++ found :: after ∧
    ∀ earlier ∈ before, earlier.field.name ≠ name

/-- The field that a name finds is the first visible one of that name. -/
theorem Schema.field?_eq_some_iff {schema : Schema τ} {name : String} {found : VisibleField τ} :
    schema.field? name = some found ↔ schema.Shows name found := by
  rw [field?, List.find?_eq_some_iff_append]
  simp only [beq_iff_eq, Bool.not_eq_eq_eq_not, Bool.not_true, beq_eq_false_iff_ne]
  exact ⟨fun ⟨hname, hfirst⟩ => ⟨hname, hfirst⟩, fun ⟨hname, hfirst⟩ => ⟨hname, hfirst⟩⟩

/-- A name finds no field if and only if no visible field has it. -/
theorem Schema.field?_eq_none_iff {schema : Schema τ} {name : String} :
    schema.field? name = none ↔ ∀ other ∈ schema.visible, other.field.name ≠ name := by
  simp [field?]

/-- The schema of a nested object is to be had. -/
inductive Nested.Available [Described τ] (provider : Provider τ) : Nested τ → Schema τ → Prop where
  /-- it is in the field -/
  | resolved (schema : Schema τ) : Available provider (.resolved schema) schema
  /-- it is that of a type known in advance -/
  | deferred (target : τ) : Available provider (.deferred target) (Described.schema target)
  /-- the provider has one under the name of the type -/
  | named {typeName : String} {schema : Schema τ} (hprovider : provider typeName = some schema) :
      Available provider (.named typeName) schema

section Find

variable [Described τ] {provider : Provider τ} {nested : Nested τ}

/-- A nested type is found if and only if it is resolved, or kept by a registered name. -/
theorem Nested.find_eq_ok_iff {schema : Schema τ} :
    nested.find provider = .ok schema ↔ nested.Available provider schema := by
  constructor
  · intro h
    cases nested with
    | resolved other =>
      obtain rfl := Except.ok.inj h
      exact .resolved other
    | deferred target =>
      obtain rfl := Except.ok.inj h
      exact .deferred target
    | named typeName =>
      cases hprovider : provider typeName with
      | none => simp [find, hprovider] at h
      | some other =>
        obtain rfl : other = schema := by simpa [find, hprovider] using h
        exact .named hprovider
  · rintro (_ | _ | hprovider)
    · rfl
    · rfl
    · simp [find, hprovider]

/-- A nested type is not found if and only if it is kept by a name that is not registered. -/
theorem Nested.find_eq_error_iff {typeName : String} :
    nested.find provider = .error typeName ↔
      nested = .named typeName ∧ provider typeName = none := by
  cases nested with
  | resolved schema => simp [find]
  | deferred target => simp [find]
  | named name =>
    cases hprovider : provider name with
    | none =>
      simp only [find, hprovider, Option.elim_none, Except.error.injEq, named.injEq]
      exact ⟨fun h => ⟨h, h ▸ hprovider⟩, And.left⟩
    | some schema =>
      simp only [find, hprovider, Option.elim_some, reduceCtorEq, named.injEq, false_iff]
      rintro ⟨rfl, hnone⟩
      cases hprovider.symm.trans hnone

end Find

/-! ## Outcomes -/

/-- What becomes of a selector that is followed by a first segment and those after it. Segments
after the second are never looked at, nor are those after one that stands for a plain field. -/
inductive Scope.Answers [Described τ] (scope : Scope τ) :
    String → List String → Outcome → Prop where
  /-- the root shows no field under the first segment -/
  | unknown {first : String} {more : List String}
      (hnone : ∀ other ∈ scope.root.visible, other.field.name ≠ first) :
      Answers scope first more (.invalid (.unknownField first scope.root.typeName))
  /-- the first segment stands for a plain field -/
  | plain {first : String} {more : List String} {found : VisibleField τ}
      (hfound : scope.root.Shows first found) (hplain : found.field.nested = none) :
      Answers scope first more .valid
  /-- the first segment stands for a nested object and no other follows; whether there is a schema
  for the object does not matter -/
  | alone {first : String} {found : VisibleField τ} {nested : Nested τ}
      (hfound : scope.root.Shows first found) (hnested : found.field.nested = some nested) :
      Answers scope first [] (.invalid (.missingNestedSelector first found.declaredOn))
  /-- there is no schema for the nested object -/
  | unavailable {first next typeName : String} {more : List String} {found : VisibleField τ}
      (hfound : scope.root.Shows first found)
      (hnested : found.field.nested = some (.named typeName))
      (hnone : scope.provider typeName = none) :
      Answers scope first (next :: more) (.invalid (.unknownField next (scope.context typeName)))
  /-- the nested type shows no field under the second segment -/
  | unknownInside {first next : String} {more : List String} {found : VisibleField τ}
      {nested : Nested τ} {schema : Schema τ} (hfound : scope.root.Shows first found)
      (hnested : found.field.nested = some nested)
      (havailable : nested.Available scope.provider schema)
      (hnone : ∀ other ∈ schema.visible, other.field.name ≠ next) :
      Answers scope first (next :: more)
        (.invalid (.unknownField next (scope.context schema.typeName)))
  /-- the second segment stands for a plain field -/
  | inside {first next : String} {more : List String} {found inner : VisibleField τ}
      {nested : Nested τ} {schema : Schema τ} (hfound : scope.root.Shows first found)
      (hnested : found.field.nested = some nested)
      (havailable : nested.Available scope.provider schema) (hinner : schema.Shows next inner)
      (hplain : inner.field.nested = none) : Answers scope first (next :: more) .valid
  /-- the second segment stands for a nested object in turn, whatever follows -/
  | nestedInside {first next : String} {more : List String} {found inner : VisibleField τ}
      {nested deeper : Nested τ} {schema : Schema τ} (hfound : scope.root.Shows first found)
      (hnested : found.field.nested = some nested)
      (havailable : nested.Available scope.provider schema) (hinner : schema.Shows next inner)
      (hdeeper : inner.field.nested = some deeper) :
      Answers scope first (next :: more) (.invalid (.missingNestedSelector next inner.declaredOn))

namespace Scope

variable [Described τ] {scope : Scope τ} {first : String} {more : List String}

/-- What is found along a path is answered. -/
theorem answers_of_finds {finding : Finding}
    (h : Finds scope.root scope.provider first more finding) :
    scope.Answers first more (finding.outcome scope) := by
  cases h with
  | unknown hfield => exact .unknown (Schema.field?_eq_none_iff.mp hfield)
  | plain hfield hplain => exact .plain (Schema.field?_eq_some_iff.mp hfield) hplain
  | alone hfield hnested => exact .alone (Schema.field?_eq_some_iff.mp hfield) hnested
  | unavailable hfield hnested hfind =>
    obtain ⟨rfl, hnone⟩ := Nested.find_eq_error_iff.mp hfind
    exact .unavailable (Schema.field?_eq_some_iff.mp hfield) hnested hnone
  | inside hfield hnested hfind hinside =>
    have hfound := Schema.field?_eq_some_iff.mp hfield
    have havailable := Nested.find_eq_ok_iff.mp hfind
    cases hinside with
    | unknown hinner =>
      exact .unknownInside hfound hnested havailable (Schema.field?_eq_none_iff.mp hinner)
    | plain hinner hplain =>
      exact .inside hfound hnested havailable (Schema.field?_eq_some_iff.mp hinner) hplain
    | nested hinner hdeeper =>
      exact .nestedInside hfound hnested havailable (Schema.field?_eq_some_iff.mp hinner) hdeeper

/-- What is answered has been found along the path. -/
theorem exists_finds_of_answers {outcome : Outcome} (h : scope.Answers first more outcome) :
    ∃ finding, Finds scope.root scope.provider first more finding ∧
      finding.outcome scope = outcome := by
  cases h with
  | unknown hnone => exact ⟨_, .unknown (Schema.field?_eq_none_iff.mpr hnone), rfl⟩
  | plain hfound hplain => exact ⟨_, .plain (Schema.field?_eq_some_iff.mpr hfound) hplain, rfl⟩
  | alone hfound hnested => exact ⟨_, .alone (Schema.field?_eq_some_iff.mpr hfound) hnested, rfl⟩
  | unavailable hfound hnested hnone =>
    exact ⟨_, .unavailable (Schema.field?_eq_some_iff.mpr hfound) hnested
      (Nested.find_eq_error_iff.mpr ⟨rfl, hnone⟩), rfl⟩
  | unknownInside hfound hnested havailable hnone =>
    exact ⟨_, .inside (Schema.field?_eq_some_iff.mpr hfound) hnested
      (Nested.find_eq_ok_iff.mpr havailable) (.unknown (Schema.field?_eq_none_iff.mpr hnone)), rfl⟩
  | inside hfound hnested havailable hinner hplain =>
    exact ⟨_, .inside (Schema.field?_eq_some_iff.mpr hfound) hnested
      (Nested.find_eq_ok_iff.mpr havailable)
      (.plain (Schema.field?_eq_some_iff.mpr hinner) hplain), rfl⟩
  | nestedInside hfound hnested havailable hinner hdeeper =>
    exact ⟨_, .inside (Schema.field?_eq_some_iff.mpr hfound) hnested
      (Nested.find_eq_ok_iff.mpr havailable)
      (.nested (Schema.field?_eq_some_iff.mpr hinner) hdeeper), rfl⟩

/-- **What becomes of a selector.** A comparison has an outcome exactly if that is the answer to the
segments by which its selector is followed. -/
theorem check_comparison_eq_iff (scope : Scope τ) (comparison : Comparison) (outcome : Outcome) :
    scope.check (.comparison comparison) = outcome ↔
      ∃ first more, comparison.selector.IsFollowedBy first more ∧
        scope.Answers first more outcome := by
  rw [check_comparison]
  constructor
  · rintro rfl
    obtain ⟨first, more, finding, hpath, hfinds⟩ :=
      comparison.selector.exists_finds scope.root scope.provider
    rw [checkSelector_of_finds hpath hfinds]
    exact ⟨first, more, Selector.path_eq_iff.mp hpath, answers_of_finds hfinds⟩
  · rintro ⟨first, more, hfollowed, hanswers⟩
    obtain ⟨finding, hfinds, rfl⟩ := exists_finds_of_answers hanswers
    exact checkSelector_of_finds (Selector.path_eq_iff.mpr hfollowed) hfinds

/-- A dot at the end asks for nothing, and two dots in a row ask for a field without a name. -/
example :
    let scope : Scope Empty :=
      ⟨⟨"Person", [.named "address" "Address"], none⟩, .none, ⟨.nestedType⟩⟩
    scope.check (.comparison ⟨⟨"address."⟩, .equal, ["1"]⟩) =
        .invalid (.missingNestedSelector "address" "Person") ∧
      scope.check (.comparison ⟨⟨"address..zip"⟩, .equal, ["1"]⟩) =
        .invalid (.unknownField "" "Address") := by
  decide

end Scope

end FilterScope
