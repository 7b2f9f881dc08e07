import FilterScope.Proofs.Check.Likeness

/-!
# Registering a type

The schemas of a registry hold copies of some types and refer to others by name. Registering a type
changes what the references find, and leaves the copies as they are. A check looks up a name only
for a nested field that is visible on the type that is filtered; there, and nowhere deeper, the new
type can be seen. So a registered type without such a field is checked as before
(`Validator.check_insert`), also if it extends an earlier type of that name or holds a copy of it.
-/

namespace FilterScope

variable {τ : Type}

/-- A visible field of the schema keeps the type by name. -/
def Schema.RefersTo (schema : Schema τ) (typeName : String) : Prop :=
  ∃ found ∈ schema.visible, found.field.nested = some (.named typeName)

/-! ## Providers that agree on what is asked for -/

theorem Schema.Alike.refl (schema : Schema τ) : schema.Alike schema :=
  ⟨rfl, List.forall₂_same.mpr fun _ _ => ⟨rfl, rfl, rfl⟩⟩

theorem FoundAlike.refl (result : Except String (Schema τ)) : FoundAlike result result := by
  cases result with
  | ok schema => exact .found (.refl schema)
  | error typeName => exact .missing typeName

variable [Described τ]

/-- Providers that agree on the name by which a type is kept find the same. -/
theorem Nested.find_congr {provider provider' : Provider τ} {nested : Nested τ}
    (h : ∀ typeName, nested = .named typeName → provider typeName = provider' typeName) :
    nested.find provider = nested.find provider' := by
  cases nested with
  | resolved => rfl
  | deferred => rfl
  | named typeName => rw [find, find, h typeName rfl]

/-- Providers that agree on the names that a root refers to make scopes that look alike. -/
theorem Scope.alike_of_agree {root : Schema τ} {provider provider' : Provider τ}
    (h : ∀ typeName, root.RefersTo typeName → provider typeName = provider' typeName)
    (config : Config) : Scope.Alike ⟨root, provider, config⟩ ⟨root, provider', config⟩ where
  config := rfl
  typeName := rfl
  visible := by
    refine List.forall₂_same.mpr fun found hmem => ⟨⟨rfl, rfl, rfl⟩, ?_⟩
    intro nested hnested nested' hnested'
    obtain rfl := Option.some.inj (hnested.symm.trans hnested')
    have hfind : nested.find provider = nested.find provider' :=
      Nested.find_congr fun typeName hname => h typeName ⟨found, hmem, hname ▸ hnested⟩
    exact hfind ▸ .refl _

/-! ## Registries -/

namespace Validator

variable {registry : Registry τ} {config : Config} {typeName : String}

/-- A filter for a registered type is checked against the schema of the type. -/
theorem check_of_find? {schema : Schema τ} (h : registry.find? typeName = some schema)
    (filter : String) : check ⟨registry, config⟩ filter typeName =
      .ok (Scope.checkText ⟨schema, registry.find?, config⟩ filter) := by
  cases hblank : Text.isBlankText filter with
  | true => simp only [check, Scope.checkText, hblank, if_true]
  | false => simp only [check, h, hblank, Bool.false_eq_true, if_false]

/-- A blank filter is valid for a type that is not registered, and no other has an outcome. -/
theorem check_of_find?_eq_none (h : registry.find? typeName = none) (filter : String) :
    check ⟨registry, config⟩ filter typeName =
      if Text.isBlankText filter then .ok .valid else .error ⟨typeName⟩ := by
  rw [check, h]

/-- A registered type is checked alike by registries that have the same schema for it, and for each
name that it refers to. -/
theorem check_congr {registry' : Registry τ} {schema : Schema τ}
    (hfind : registry.find? typeName = some schema)
    (hfind' : registry'.find? typeName = some schema)
    (h : ∀ name, schema.RefersTo name → registry.find? name = registry'.find? name)
    (filter : String) :
    check ⟨registry, config⟩ filter typeName = check ⟨registry', config⟩ filter typeName := by
  rw [check_of_find? hfind, check_of_find? hfind', (Scope.alike_of_agree h config).checkText]

/-- A registered type that does not refer to the new one is checked as before. -/
theorem check_insert_of_not_refersTo {schema inserted : Schema τ}
    (hfind : registry.find? typeName = some schema) (hne : inserted.typeName ≠ typeName)
    (hrefers : ¬ schema.RefersTo inserted.typeName) (filter : String) :
    check ⟨registry.insert inserted, config⟩ filter typeName =
      check ⟨registry, config⟩ filter typeName := by
  have hfind' : (registry.insert inserted).find? typeName = some schema :=
    (registry.find?_insert_of_ne hne).trans hfind
  refine check_congr hfind' hfind (fun name hname => registry.find?_insert_of_ne ?_) filter
  rintro rfl
  exact hrefers hname

/-- It is checked as before after any number of insertions. -/
theorem check_insertMany {schema : Schema τ} (hfind : registry.find? typeName = some schema)
    {inserted : List (Schema τ)} (hne : ∀ other ∈ inserted, other.typeName ≠ typeName)
    (hrefers : ∀ other ∈ inserted, ¬ schema.RefersTo other.typeName) (filter : String) :
    check ⟨registry.insertMany inserted, config⟩ filter typeName =
      check ⟨registry, config⟩ filter typeName := by
  induction inserted generalizing registry with
  | nil => rfl
  | cons first more ih =>
    rw [List.forall_mem_cons] at hne hrefers
    have hfind' : (registry.insert first).find? typeName = some schema :=
      (registry.find?_insert_of_ne hne.1).trans hfind
    calc check ⟨(registry.insert first).insertMany more, config⟩ filter typeName
      _ = check ⟨registry.insert first, config⟩ filter typeName := ih hfind' hne.2 hrefers.2
      _ = check ⟨registry, config⟩ filter typeName :=
        check_insert_of_not_refersTo hfind hne.1 hrefers.1 filter

/-- **Registering a type is seen by references alone.** Register a type in any registry, where there
may be one of its name. Each other type is checked as before, for any filter, if no visible field of
it refers to the new type by name. A name that is not registered stays unknown, but for a blank
filter, which is valid before and after. -/
theorem check_insert (registry : Registry τ) (inserted : Schema τ) (config : Config)
    (filter : String) {typeName : String} (hne : typeName ≠ inserted.typeName) :
    (∀ schema, registry.find? typeName = some schema → ¬ schema.RefersTo inserted.typeName →
      check ⟨registry.insert inserted, config⟩ filter typeName =
        check ⟨registry, config⟩ filter typeName) ∧
    (registry.find? typeName = none →
      check ⟨registry, config⟩ filter typeName =
        (if Text.isBlankText filter then .ok .valid else .error ⟨typeName⟩) ∧
      check ⟨registry.insert inserted, config⟩ filter typeName =
        (if Text.isBlankText filter then .ok .valid else .error ⟨typeName⟩)) := by
  constructor
  · intro schema hfind hrefers
    exact check_insert_of_not_refersTo hfind hne.symm hrefers filter
  · intro hnone
    have hnone' : (registry.insert inserted).find? typeName = none :=
      (registry.find?_insert_of_ne hne.symm).trans hnone
    exact ⟨check_of_find?_eq_none hnone filter, check_of_find?_eq_none hnone' filter⟩

end Validator

/-- A type that others extend and nest. -/
def record (fields : List (Field Empty)) : Schema Empty := ⟨"Record", fields, none⟩

/-- A type that extends records, holds one in a field, and refers to another type by name. -/
def letter : Schema Empty :=
  ⟨"Letter", [.resolved "draft" (record [.plain "date"]), .named "sender" "Person"],
    some (record [.plain "date"])⟩

/-- Records and letters are registered, and persons are not. -/
def archive : Registry Empty := .insertMany ∅ [record [.plain "date"], letter]

/-- What is registered in the archive. -/
theorem find?_archive (name : String) :
    archive.find? name =
      if "Letter" = name then some letter
      else if "Record" = name then some (record [.plain "date"]) else none := by
  rw [archive, Registry.insertMany, List.foldl_cons, List.foldl_cons, List.foldl_nil,
    Registry.find?_insert, Registry.find?_insert, Registry.find?_empty]
  rfl

theorem check_insert_letter :
    archive.find? "Record" = some (record [.plain "date"]) ∧
      "Letter" ≠ "Record" ∧ archive.find? "Letter" = some letter ∧ ¬ letter.RefersTo "Record" ∧
      "Person" ≠ "Record" ∧ archive.find? "Person" = none ∧
      (∀ config filter,
        Validator.check ⟨archive.insert (record [.named "date" "Date"]), config⟩ filter "Letter" =
          Validator.check ⟨archive, config⟩ filter "Letter") ∧
      ∀ config, Validator.check ⟨archive.insert (record [.named "date" "Date"]), config⟩ "date==1"
        "Person" = .error ⟨"Person"⟩ := by
  have hletter : archive.find? "Letter" = some letter := find?_archive "Letter"
  have hperson : archive.find? "Person" = none := find?_archive "Person"
  have hrefers : ¬ letter.RefersTo "Record" := by
    rintro ⟨found, hmem, hnested⟩
    have hvisible : letter.visible = [⟨.resolved "draft" (record [.plain "date"]), "Letter"⟩,
        ⟨.named "sender" "Person", "Letter"⟩, ⟨.plain "date", "Record"⟩] := rfl
    simp only [hvisible, List.mem_cons, List.not_mem_nil, or_false] at hmem
    rcases hmem with rfl | rfl | rfl <;> simp [Field.resolved, Field.named, Field.plain] at hnested
  refine ⟨find?_archive "Record", by decide, hletter, hrefers, by decide, hperson, ?_, ?_⟩
  · intro config filter
    exact (Validator.check_insert archive (record [.named "date" "Date"]) config filter
      (by decide)).1 letter hletter hrefers
  · intro config
    have hunknown := (Validator.check_insert archive (record [.named "date" "Date"]) config
      "date==1" (by decide : "Person" ≠ "Record")).2 hperson
    exact hunknown.2

end FilterScope
