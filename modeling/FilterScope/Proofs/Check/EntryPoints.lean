import FilterScope.Proofs.Check.Growth
import FilterScope.Proofs.Check.Insertion

/-!
# The ways of asking

The same filter can be checked for a type that is registered by name, for a type known in advance,
and against a schema on its own. The first two look nested types up in the registry, and the last
looks nothing up. They agree as far as they can (`Validator.check_agrees`):

* what is **asked by name** is answered as for a type known in advance with the same schema;
* **on its own** a schema has the same outcomes, if its visible fields refer to no registered type;
  if they do, it may reject more filters and accepts no more;
* a name that is **not registered** is answered before the filter is parsed. So a syntax error is
  not reported for it, and only a blank filter is accepted.

The second point is about providers: to look up more names keeps what is accepted
(`Scope.checkText_eq_valid_of_provider`), since a field of a type that is not found is never
accepted.
-/

namespace FilterScope

open FilterScope.Filter

variable {τ : Type} [Described τ]

/-! ## Providers that know more names -/

namespace Scope

/-- A text is valid if it is blank, or a filter whose expression is valid. -/
theorem checkText_eq_valid_iff {scope : Scope τ} {filter : String} :
    scope.checkText filter = .valid ↔
      Text.isBlankText filter = true ∨
        ∃ expr, parse filter = .ok expr ∧ scope.check expr = .valid := by
  cases hblank : Text.isBlankText filter with
  | true => simp [checkText, hblank]
  | false => cases hparse : parse filter <;> simp [checkText, hblank, hparse]

variable {root : Schema τ} {provider provider' : Provider τ} {config : Config}

/-- An expression that is valid stays so if the provider also knows other names. -/
theorem check_eq_valid_of_provider
    (h : ∀ name schema, provider name = some schema → provider' name = some schema) {expr : Expr}
    (hvalid : check ⟨root, provider, config⟩ expr = .valid) :
    check ⟨root, provider', config⟩ expr = .valid := by
  rw [check_eq_valid_iff] at hvalid ⊢
  intro leaf hleaf
  have hselector := hvalid leaf hleaf
  rw [check_comparison, checkSelector_eq_valid_iff] at hselector ⊢
  obtain ⟨first, more, hpath, hfinds⟩ := hselector
  have hsame : ∀ name schema, provider name = some schema →
      ∃ schema', provider' name = some schema' ∧ Relation.ReflGen Schema.Grows schema schema' :=
    fun name schema hname => ⟨schema, h name schema hname, .refl⟩
  exact ⟨first, more, hpath, DataModel.finds_of_provider hsame hfinds⟩

/-- So does the text of a filter. -/
theorem checkText_eq_valid_of_provider
    (h : ∀ name schema, provider name = some schema → provider' name = some schema)
    {filter : String} (hvalid : checkText ⟨root, provider, config⟩ filter = .valid) :
    checkText ⟨root, provider', config⟩ filter = .valid := by
  rw [checkText_eq_valid_iff] at hvalid ⊢
  refine hvalid.imp_right ?_
  rintro ⟨expr, hparse, hcheck⟩
  exact ⟨expr, hparse, check_eq_valid_of_provider h hcheck⟩

end Scope

/-- Without a provider a root is checked as with one that has none of the names it refers to. -/
theorem checkText_eq_checkFilter {root : Schema τ} {provider : Provider τ}
    (h : ∀ name, root.RefersTo name → provider name = none) (config : Config) (filter : String) :
    Scope.checkText ⟨root, provider, config⟩ filter = checkFilter filter root config := by
  have halike : Scope.Alike ⟨root, provider, config⟩ ⟨root, .none, config⟩ :=
    Scope.alike_of_agree h config
  rw [halike.checkText, checkFilter]

/-! ## Registered types -/

namespace Validator

variable {registry : Registry τ} {typeName : String}

/-- A type that is registered and known in advance is checked alike both ways. -/
theorem check_eq_checkTarget {target : τ}
    (h : registry.find? typeName = some (Described.schema target)) (config : Config)
    (filter : String) :
    check ⟨registry, config⟩ filter typeName =
      .ok (checkTarget ⟨registry, config⟩ filter target) := by
  rw [check_of_find? h, checkTarget]

/-- **The ways of asking agree.** A filter is checked for a registered type as for a type known in
advance that has the same schema. Checked against the schema on its own it has the same outcome, if
no visible field of the schema refers to a registered type; and in any case, if it is valid on its
own then it is valid for the registered type. For a name that is not registered, a blank filter is
valid, and any other one is answered by the unknown type, whether it is a filter or not. -/
theorem check_agrees (registry : Registry τ) (config : Config) (filter typeName : String) :
    (∀ schema, registry.find? typeName = some schema →
      (∀ target : τ, Described.schema target = schema →
        check ⟨registry, config⟩ filter typeName =
          .ok (checkTarget ⟨registry, config⟩ filter target)) ∧
      ((∀ name, schema.RefersTo name → registry.find? name = none) →
        check ⟨registry, config⟩ filter typeName = .ok (checkFilter filter schema config)) ∧
      (checkFilter filter schema config = .valid →
        check ⟨registry, config⟩ filter typeName = .ok .valid)) ∧
    (registry.find? typeName = none →
      (check ⟨registry, config⟩ filter typeName = .ok .valid ↔ Text.isBlankText filter = true) ∧
      (check ⟨registry, config⟩ filter typeName = .error ⟨typeName⟩ ↔
        ¬ Text.isBlankText filter = true)) := by
  constructor
  · intro schema hfind
    refine ⟨?_, ?_, ?_⟩
    · rintro target rfl
      exact check_eq_checkTarget hfind config filter
    · intro hrefers
      rw [check_of_find? hfind, checkText_eq_checkFilter hrefers]
    · intro hvalid
      have hnone : ∀ name (other : Schema τ), Provider.none name = some other →
          registry.find? name = some other := by
        intro name other h
        cases h
      rw [check_of_find? hfind, Scope.checkText_eq_valid_of_provider hnone hvalid]
  · intro hnone
    rw [check_of_find?_eq_none hnone]
    cases Text.isBlankText filter <;> simp

end Validator

/-- Orders are known in advance. -/
inductive Trade where
  | order

/-- Orders follow on others, and refer to a type that is not registered. -/
def order : Schema Trade :=
  ⟨"Order", [.plain "number", .deferred "previous" .order, .named "customer" "Person"], none⟩

instance : Described Trade := ⟨fun _ => order⟩

/-- Invoices refer to a type that is registered. -/
def invoice : Schema Trade :=
  ⟨"Invoice", [.plain "date", .named "order" "Order"], none⟩

/-- Orders and invoices are registered, and persons are not. -/
def shop : Registry Trade := .insertMany ∅ [order, invoice]

/-- What is registered in the shop. -/
theorem find?_shop (name : String) :
    shop.find? name =
      if "Invoice" = name then some invoice else if "Order" = name then some order else none := by
  rw [shop, Registry.insertMany, List.foldl_cons, List.foldl_cons, List.foldl_nil,
    Registry.find?_insert, Registry.find?_insert, Registry.find?_empty]
  rfl

theorem check_agrees_shop :
    shop.find? "Order" = some order ∧ Described.schema Trade.order = order ∧
      (∀ name, order.RefersTo name → shop.find? name = none) ∧
      shop.find? "Invoice" = some invoice ∧
      checkFilter "date==\"1\"" invoice .default = .valid ∧ shop.find? "Person" = none ∧
      (∀ config filter, Validator.check ⟨shop, config⟩ filter "Order" =
        .ok (Validator.checkTarget ⟨shop, config⟩ filter .order)) ∧
      (∀ config filter, Validator.check ⟨shop, config⟩ filter "Order" =
        .ok (checkFilter filter order config)) ∧
      Validator.check ⟨shop, .default⟩ "date==\"1\"" "Invoice" = .ok .valid ∧
      Validator.check ⟨shop, .default⟩ "date==" "Person" = .error ⟨"Person"⟩ := by
  have horder : shop.find? "Order" = some order := find?_shop "Order"
  have hinvoice : shop.find? "Invoice" = some invoice := find?_shop "Invoice"
  have hperson : shop.find? "Person" = none := find?_shop "Person"
  have hrefers : ∀ name, order.RefersTo name → shop.find? name = none := by
    rintro name ⟨found, hmem, hnested⟩
    have hvisible : order.visible = [⟨.plain "number", "Order"⟩,
        ⟨.deferred "previous" .order, "Order"⟩, ⟨.named "customer" "Person", "Order"⟩] := rfl
    simp only [hvisible, List.mem_cons, List.not_mem_nil, or_false] at hmem
    rcases hmem with rfl | rfl | rfl <;>
      simp only [Field.plain, Field.deferred, Field.named, reduceCtorEq, Option.some.injEq,
        Nested.named.injEq] at hnested
    exact hnested ▸ hperson
  have hdate : Expr.WellFormed (.comparison ⟨⟨"date"⟩, .equal, ["1"]⟩) :=
    .comparison ⟨by decide, List.all_eq_true.mp (by decide), by decide, by decide⟩
  have htext : "date==\"1\"".toList = Expr.chars (.comparison ⟨⟨"date"⟩, .equal, ["1"]⟩) := by
    decide
  have hvalid : checkFilter "date==\"1\"" invoice .default = .valid := by
    rw [checkFilter, Scope.checkText_of_parse _ (parse_of_isFilter (htext ▸ isFilter_chars hdate))]
    decide
  have hagrees := Validator.check_agrees shop
  refine ⟨horder, rfl, hrefers, hinvoice, hvalid, hperson, ?_, ?_, ?_, ?_⟩
  · intro config filter
    exact ((hagrees config filter "Order").1 order horder).1 .order rfl
  · intro config filter
    exact ((hagrees config filter "Order").1 order horder).2.1 hrefers
  · exact ((hagrees .default _ "Invoice").1 invoice hinvoice).2.2 hvalid
  · exact ((hagrees .default "date==" "Person").2 hperson).2.mpr (by decide)

end FilterScope
