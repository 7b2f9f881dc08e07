import FilterScope.Check.Violation
import FilterScope.Message.Template
import Std.Data.ExtTreeMap

/-!
# Message catalogs

A catalog holds templates by key. The English catalog has one for each kind of violation; another
catalog is made from it by putting entries in, so it holds at least those three keys and a later
entry replaces an earlier one of the same key.

A violation is rendered by the template under its key, filled with the segment at fault and the type
that it is reported against. A catalog without that key renders the violation's own text.
-/

namespace FilterScope

/-- Templates by key. -/
structure Catalog where
  /-- the template of each key -/
  templates : Std.ExtTreeMap String String

namespace Catalog

/-- The template of a key. -/
def template? (catalog : Catalog) (key : String) : Option String :=
  catalog.templates[key]?

/-- Puts a template under a key, in place of any that was there before. -/
def insert (catalog : Catalog) (key template : String) : Catalog :=
  ⟨catalog.templates.insert key template⟩

/-- Puts entries in, one after the other. -/
def insertMany (catalog : Catalog) (entries : List (String × String)) : Catalog :=
  entries.foldl (fun catalog entry => catalog.insert entry.1 entry.2) catalog

/-- The entries in the order of their keys. -/
def toList (catalog : Catalog) : List (String × String) :=
  catalog.templates.toList

/-- The catalog without any template. -/
def empty : Catalog := ⟨∅⟩

/-- The English template for a kind of violation. -/
def englishTemplate : ViolationKind → String
  | .syntaxError => "The filter syntax is invalid."
  | .unknownField => "The filter is invalid: the field <%s> can't be found in %s."
  | .missingNestedSelector =>
    "The filter is invalid: please add the name of the field you are searching for in nested " ++
      "object <%s> in class %s."

/-- The English catalog: a template for each kind of violation. -/
def english : Catalog :=
  empty.insertMany
    ([.syntaxError, .unknownField, .missingNestedSelector].map fun kind : ViolationKind =>
      (kind.key, englishTemplate kind))

/-- The English catalog with entries put in. -/
def ofEntries (entries : List (String × String)) : Catalog :=
  english.insertMany entries

/-! ## Rendering -/

/-- What the placeholders of a violation's template are filled with. -/
def arguments (violation : Violation) : List String :=
  violation.selector?.toList ++ violation.typeName?.toList

/-- The message for a violation. -/
def render (catalog : Catalog) (violation : Violation) : String :=
  match catalog.template? violation.key with
  | none => violation.text
  | some template => Template.fill template (arguments violation)

/-! ## What the operations do to the templates that are found -/

/-- Catalogs are equal if they have the same templates. -/
theorem ext_template? {c d : Catalog} (h : ∀ key, c.template? key = d.template? key) : c = d := by
  obtain ⟨cs⟩ := c
  obtain ⟨ds⟩ := d
  obtain rfl : cs = ds := Std.ExtTreeMap.ext_getElem? h
  rfl

/-- A template that is inserted is found under its key, and no other is changed. -/
theorem template?_insert (catalog : Catalog) (key template key' : String) :
    (catalog.insert key template).template? key' =
      if key = key' then some template else catalog.template? key' := by
  simp only [template?, insert, Std.ExtTreeMap.getElem?_insert, Std.LawfulEqCmp.compare_eq_iff_eq]

end Catalog

end FilterScope
