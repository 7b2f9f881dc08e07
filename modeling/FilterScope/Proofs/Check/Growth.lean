import Mathlib.Logic.Relation
import FilterScope.Proofs.Check.Findings

/-!
# Growing a data model

A data model grows when a type gets one more plain field, at any position and also under a name that
is in use; when a type that extends none gets a supertype; and when a new type is registered. An
expression that is valid stays so (`DataModel.check_of_grows`).

The reason is not that names keep their meaning: a new plain field may come before a nested one of
the same name. But then the name stands for a plain field, and a plain field accepts every selector
that goes on behind it. So a name that stands for a field keeps it, or gets a plain one in its
place, or leads to a type that has grown itself (`Develops`).
-/

namespace FilterScope

open FilterScope.Filter

variable {τ : Type}

/-! ## Growth of a schema -/

/-- A schema grows at one place, in itself or in a schema that it holds. -/
inductive Schema.Grows : Schema τ → Schema τ → Prop where
  /-- one more plain field is declared, at any position and by any name -/
  | field (typeName : String) (before after : List (Field τ)) (supertype : Option (Schema τ))
      (name : String) : Grows ⟨typeName, before ++ after, supertype⟩
        ⟨typeName, before ++ .plain name :: after, supertype⟩
  /-- a type that extends none extends one -/
  | supertype (typeName : String) (fields : List (Field τ)) (supertype : Schema τ) :
      Grows ⟨typeName, fields, none⟩ ⟨typeName, fields, some supertype⟩
  /-- the supertype grows -/
  | inherited (typeName : String) (fields : List (Field τ)) {supertype supertype' : Schema τ}
      (h : Grows supertype supertype') :
      Grows ⟨typeName, fields, some supertype⟩ ⟨typeName, fields, some supertype'⟩
  /-- a nested type that is held in its field grows -/
  | held (typeName : String) (before after : List (Field τ)) (supertype : Option (Schema τ))
      (name : String) {schema schema' : Schema τ} (h : Grows schema schema') :
      Grows ⟨typeName, before ++ .resolved name schema :: after, supertype⟩
        ⟨typeName, before ++ .resolved name schema' :: after, supertype⟩

/-- What a name stands for stays as it is, becomes a plain field, or leads to a type that has
grown. -/
inductive Develops : Option (VisibleField τ) → Option (VisibleField τ) → Prop where
  /-- as it is -/
  | same (found? : Option (VisibleField τ)) : Develops found? found?
  /-- a plain field -/
  | plain (found? : Option (VisibleField τ)) {found : VisibleField τ}
      (hplain : found.field.nested = none) : Develops found? (some found)
  /-- a type that has grown -/
  | held (name owner : String) {schema schema' : Schema τ} (h : schema.Grows schema') :
      Develops (some ⟨.resolved name schema, owner⟩) (some ⟨.resolved name schema', owner⟩)

/-- What is declared, or else inherited, develops if both do. -/
theorem Develops.or {found? found?' inherited? inherited?' : Option (VisibleField τ)}
    (h : Develops found? found?') (hinherited : Develops inherited? inherited?') :
    Develops (found?.or inherited?) (found?'.or inherited?') := by
  cases h with
  | same =>
    cases found? with
    | none => exact hinherited
    | some found => exact .same _
  | plain _ hplain => exact .plain _ hplain
  | held name owner h => exact .held name owner h

/-- A plain field stays, and stays plain. -/
theorem Develops.exists_plain {found : VisibleField τ} {found?' : Option (VisibleField τ)}
    (h : Develops (some found) found?') (hplain : found.field.nested = none) :
    ∃ found', found?' = some found' ∧ found'.field.nested = none := by
  cases h with
  | same => exact ⟨found, rfl, hplain⟩
  | plain _ hplain' => exact ⟨_, rfl, hplain'⟩
  | held => cases hplain

namespace Schema

/-- The field that a name stands for among those that a type declares itself. -/
def declared? (schema : Schema τ) (name : String) : Option (VisibleField τ) :=
  schema.own.find? (·.field.name == name)

/-- A name that a type does not declare is one that its supertype declares. -/
theorem field?_eq (schema : Schema τ) (name : String) :
    schema.field? name =
      (schema.declared? name).or (schema.supertype.bind (·.declared? name)) := by
  rw [field?, visible, List.find?_append]
  cases schema.supertype <;> rfl

/-- A name that is not declared by the first fields is declared by those behind them. -/
theorem declared?_append (typeName name : String) (before after : List (Field τ))
    (supertype : Option (Schema τ)) :
    declared? ⟨typeName, before ++ after, supertype⟩ name =
      (declared? ⟨typeName, before, supertype⟩ name).or
        (declared? ⟨typeName, after, supertype⟩ name) := by
  rw [declared?, own, List.map_append, List.find?_append]
  rfl

/-- The field that is declared first is found first. -/
theorem declared?_cons (typeName name : String) (field : Field τ) (more : List (Field τ))
    (supertype : Option (Schema τ)) :
    declared? ⟨typeName, field :: more, supertype⟩ name =
      if field.name = name then some ⟨field, typeName⟩
      else declared? ⟨typeName, more, supertype⟩ name := by
  simp only [declared?, own, List.map_cons, List.find?_cons]
  split <;> simp_all

namespace Grows

variable {schema schema' : Schema τ}

/-- What a name stands for among the fields that a type declares develops when the type grows. -/
theorem declared? (h : schema.Grows schema') (name : String) :
    Develops (schema.declared? name) (schema'.declared? name) := by
  cases h with
  | field typeName before after supertype added =>
    rw [declared?_append, declared?_append, declared?_cons]
    refine (Develops.same _).or ?_
    split
    · exact .plain _ rfl
    · exact .same _
  | supertype => exact .same _
  | inherited => exact .same _
  | held typeName before after supertype fieldName h =>
    rw [declared?_append, declared?_append, declared?_cons, declared?_cons]
    refine (Develops.same _).or ?_
    by_cases hname : fieldName = name
    · rw [if_pos (by exact hname), if_pos (by exact hname)]
      exact .held fieldName typeName h
    · rw [if_neg (by exact hname), if_neg (by exact hname)]
      exact .same _

/-- So does what it stands for among the visible fields, if it stands for one at all. -/
theorem field? (h : schema.Grows schema') {name : String} {found : VisibleField τ}
    (hfield : schema.field? name = some found) : Develops (some found) (schema'.field? name) := by
  have hdeclared := h.declared? name
  rw [field?_eq] at hfield ⊢
  cases h with
  | field => exact hfield ▸ hdeclared.or (.same _)
  | held => exact hfield ▸ hdeclared.or (.same _)
  | inherited typeName fields h => exact hfield ▸ hdeclared.or (h.declared? name)
  | supertype typeName fields supertype =>
    -- The new supertype may declare the name as well, but the type itself comes first.
    have hown : Schema.declared? ⟨typeName, fields, some supertype⟩ name = some found :=
      Option.or_none.symm.trans hfield
    rw [hown]
    exact .same _

/-- A segment that names a plain field of a nested type still does so. -/
theorem findsInside (h : schema.Grows schema') {name : String}
    (hinside : schema.FindsInside name .accepted) : schema'.FindsInside name .accepted := by
  cases hinside with
  | plain hfield hplain =>
    obtain ⟨found', hfield', hplain'⟩ := (h.field? hfield).exists_plain hplain
    exact .plain hfield' hplain'

end Grows

end Schema

/-! ## Growth of a data model -/

/-- What expressions are checked against. -/
structure DataModel (τ : Type) where
  /-- the types known in advance -/
  described : Described τ
  /-- the type that is filtered -/
  root : Schema τ
  /-- finds the types that nested objects are looked up by -/
  provider : Provider τ

namespace DataModel

/-- Checks an expression against a data model. -/
def check (model : DataModel τ) (config : Config) (expr : Expr) : Outcome :=
  @Scope.check τ model.described ⟨model.root, model.provider, config⟩ expr

/-- A data model grows at one place. -/
inductive Grows : DataModel τ → DataModel τ → Prop where
  /-- the type that is filtered grows -/
  | root (described : Described τ) (provider : Provider τ) {root root' : Schema τ}
      (h : root.Grows root') : Grows ⟨described, root, provider⟩ ⟨described, root', provider⟩
  /-- a type known in advance grows -/
  | known (root : Schema τ) (provider : Provider τ) {described described' : Described τ}
      (target : τ) (h : (described.schema target).Grows (described'.schema target))
      (hothers : ∀ other, other ≠ target → described.schema other = described'.schema other) :
      Grows ⟨described, root, provider⟩ ⟨described', root, provider⟩
  /-- a type that is looked up by name grows -/
  | entry (described : Described τ) (root : Schema τ) {provider provider' : Provider τ}
      {schema schema' : Schema τ} (typeName : String) (hfind : provider typeName = some schema)
      (hfind' : provider' typeName = some schema') (h : schema.Grows schema')
      (hothers : ∀ other, other ≠ typeName → provider other = provider' other) :
      Grows ⟨described, root, provider⟩ ⟨described, root, provider'⟩
  /-- a type is registered under a name that has none -/
  | registered (described : Described τ) (root : Schema τ) {provider provider' : Provider τ}
      {schema : Schema τ} (typeName : String) (hfind : provider typeName = none)
      (hfind' : provider' typeName = some schema)
      (hothers : ∀ other, other ≠ typeName → provider other = provider' other) :
      Grows ⟨described, root, provider⟩ ⟨described, root, provider'⟩

/-! ## What is accepted stays accepted -/

/-- A selector is accepted by a data model. -/
def Accepts (model : DataModel τ) (selector : Selector) : Prop :=
  ∃ first more, selector.path = first :: more ∧
    @Finds τ model.described model.root model.provider first more .accepted

/-- An expression is valid if each of its selectors is accepted. -/
theorem check_eq_valid_iff {model : DataModel τ} {config : Config} {expr : Expr} :
    model.check config expr = .valid ↔ ∀ leaf ∈ expr.comparisons, model.Accepts leaf.selector := by
  let := model.described
  rw [check, Scope.check_eq_valid_iff]
  refine forall₂_congr fun leaf _ => ?_
  rw [Scope.check_comparison]
  exact Scope.checkSelector_eq_valid_iff

/-- The root keeps what it accepts when it grows. -/
theorem finds_of_root [Described τ] {root root' : Schema τ} {provider : Provider τ}
    (h : root.Grows root') {first : String} {more : List String}
    (hfinds : Finds root provider first more .accepted) :
    Finds root' provider first more .accepted := by
  cases hfinds with
  | plain hfield hplain =>
    obtain ⟨found', hfield', hplain'⟩ := (h.field? hfield).exists_plain hplain
    exact .plain hfield' hplain'
  | inside hfield hnested hfind hinside =>
    have hdevelops := h.field? hfield
    generalize hfield' : root'.field? first = found?' at hdevelops
    cases hdevelops with
    | same => exact .inside hfield' hnested hfind hinside
    | plain _ hplain => exact .plain hfield' hplain
    | held name owner h =>
      obtain rfl := Option.some.inj hnested
      obtain rfl := Except.ok.inj hfind
      exact .inside hfield' rfl rfl (h.findsInside hinside)

/-- A root keeps what it accepts when the types grow that its nested objects lead to. -/
theorem finds_of_find {described described' : Described τ} {root : Schema τ}
    {provider provider' : Provider τ}
    (h : ∀ (nested : Nested τ) (schema : Schema τ),
      @Nested.find τ described provider nested = .ok schema →
        ∃ schema', @Nested.find τ described' provider' nested = .ok schema' ∧
          Relation.ReflGen Schema.Grows schema schema') {first : String} {more : List String}
    (hfinds : @Finds τ described root provider first more .accepted) :
    @Finds τ described' root provider' first more .accepted := by
  cases hfinds with
  | plain hfield hplain => exact .plain hfield hplain
  | inside hfield hnested hfind hinside =>
    obtain ⟨schema', hfind', hgrows⟩ := h _ _ hfind
    cases hgrows with
    | refl => exact .inside hfield hnested hfind' hinside
    | single hgrows => exact .inside hfield hnested hfind' (hgrows.findsInside hinside)

/-- In particular when the types grow that are known in advance. -/
theorem finds_of_known {described described' : Described τ} {root : Schema τ}
    {provider : Provider τ}
    (h : ∀ target, Relation.ReflGen Schema.Grows (described.schema target)
      (described'.schema target)) {first : String} {more : List String}
    (hfinds : @Finds τ described root provider first more .accepted) :
    @Finds τ described' root provider first more .accepted := by
  refine finds_of_find (fun nested schema hfind => ?_) hfinds
  cases nested with
  | resolved => exact ⟨schema, hfind, .refl⟩
  | named => exact ⟨schema, hfind, .refl⟩
  | deferred target =>
    obtain rfl := Except.ok.inj hfind
    exact ⟨described'.schema target, rfl, h target⟩

/-- And when the types grow that are looked up by name, and others are registered. -/
theorem finds_of_provider {described : Described τ} {root : Schema τ}
    {provider provider' : Provider τ}
    (h : ∀ typeName schema, provider typeName = some schema →
      ∃ schema', provider' typeName = some schema' ∧ Relation.ReflGen Schema.Grows schema schema')
    {first : String} {more : List String} (hfinds : Finds root provider first more .accepted) :
    Finds root provider' first more .accepted := by
  refine finds_of_find (fun nested schema hfind => ?_) hfinds
  cases nested with
  | resolved => exact ⟨schema, hfind, .refl⟩
  | deferred => exact ⟨schema, hfind, .refl⟩
  | named typeName =>
    rw [Nested.find] at hfind
    cases hentry : provider typeName with
    | none =>
      rw [hentry] at hfind
      cases hfind
    | some entry =>
      rw [hentry] at hfind
      obtain rfl := Except.ok.inj hfind
      obtain ⟨schema', hentry', hgrows⟩ := h typeName entry hentry
      refine ⟨schema', ?_, hgrows⟩
      rw [Nested.find, hentry']
      rfl

/-- One step of growth keeps what is accepted. -/
theorem Grows.accepts {model model' : DataModel τ} (h : model.Grows model') {selector : Selector}
    (haccepts : model.Accepts selector) : model'.Accepts selector := by
  obtain ⟨first, more, hpath, hfinds⟩ := haccepts
  refine ⟨first, more, hpath, ?_⟩
  cases h with
  | root _ _ h => exact finds_of_root h hfinds
  | known _ _ target h hothers =>
    refine finds_of_known (fun other => ?_) hfinds
    by_cases hother : other = target
    · exact hother ▸ .single h
    · exact hothers other hother ▸ .refl
  | entry _ _ typeName hfind hfind' h hothers =>
    refine finds_of_provider (fun other found hfound => ?_) hfinds
    by_cases hother : other = typeName
    · subst hother
      obtain rfl := Option.some.inj (hfind.symm.trans hfound)
      exact ⟨_, hfind', .single h⟩
    · exact ⟨found, (hothers other hother).symm.trans hfound, .refl⟩
  | registered _ _ typeName hfind _ hothers =>
    refine finds_of_provider (fun other found hfound => ?_) hfinds
    have hother : other ≠ typeName := by
      rintro rfl
      cases hfind.symm.trans hfound
    exact ⟨found, (hothers other hother).symm.trans hfound, .refl⟩

/-- And so do any number of steps. -/
theorem accepts_of_grows {model model' : DataModel τ}
    (h : Relation.ReflTransGen Grows model model') {selector : Selector}
    (haccepts : model.Accepts selector) : model'.Accepts selector := by
  induction h with
  | refl => exact haccepts
  | tail _ hstep ih => exact hstep.accepts ih

/-- **Growth rejects nothing.** An expression that is valid for a data model is valid for each that
it grows to: with plain fields of any name at any place of a type, with a supertype for a type that
had none, with new types registered. It does not matter whether the type is the one that is
filtered, the supertype of another, held in a field, known in advance or looked up by name. -/
theorem check_of_grows {model model' : DataModel τ} (h : Relation.ReflTransGen Grows model model')
    (config : Config) (expr : Expr) (hvalid : model.check config expr = .valid) :
    model'.check config expr = .valid := by
  rw [check_eq_valid_iff] at hvalid ⊢
  intro leaf hleaf
  exact accepts_of_grows h (hvalid leaf hleaf)

end DataModel

/-- It takes a plain field for that: a nested one in its place takes the name away. -/
example :
    Scope.check (⟨⟨"Person", [.plain "home"], none⟩, .none, .default⟩ : Scope Empty)
        (.comparison ⟨⟨"home"⟩, .equal, ["Ghent"]⟩) = .valid ∧
      Scope.check (⟨⟨"Person", [.named "home" "Address", .plain "home"], none⟩, .none, .default⟩ :
        Scope Empty) (.comparison ⟨⟨"home"⟩, .equal, ["Ghent"]⟩) =
          .invalid (.missingNestedSelector "home" "Person") := by
  decide

/-- An address is known in advance. -/
inductive Place where
  | address

/-- Persons with an address, a car and an employer. -/
def persons (before carFields : List (Field Place)) : Schema Place :=
  ⟨"Person", before ++ [.deferred "home" .address, .resolved "car" ⟨"Car", carFields, none⟩,
    .named "employer" "Company"], none⟩

/-- Companies, and offices if there are any. -/
def companies (fields : List (Field Place)) (office : Option (Schema Place)) : Provider Place :=
  fun typeName =>
    if typeName = "Company" then some ⟨"Company", fields, none⟩
    else if typeName = "Office" then office
    else none

/-- Each type of a person's nested objects declares one field. -/
def sparse : DataModel Place :=
  ⟨⟨fun _ => ⟨"Address", [.plain "city"], none⟩⟩, persons [] [.plain "plate"],
    companies [.plain "title"] none⟩

/-- Every type has grown, and there is another one. -/
def dense : DataModel Place :=
  ⟨⟨fun _ => ⟨"Address", [.plain "city"], some ⟨"Record", [.named "city" "City"], none⟩⟩⟩,
    persons [.plain "home"] [.plain "plate", .plain "plate"],
    companies [.plain "id", .plain "title"] (some ⟨"Office", [], none⟩)⟩

/-- A comparison for each nested object of a person. -/
def nestedExprs : Expr :=
  .logical .and
    [.comparison ⟨⟨"home.city"⟩, .equal, ["Ghent"]⟩, .comparison ⟨⟨"car.plate"⟩, .equal, ["1"]⟩,
     .comparison ⟨⟨"employer.title"⟩, .notEqual, [""]⟩]

theorem check_of_grows_dense :
    Relation.ReflTransGen DataModel.Grows sparse dense ∧
      sparse.check .default nestedExprs = .valid ∧ dense.check .default nestedExprs = .valid := by
  have hroot : Schema.Grows (persons [] [.plain "plate"])
      (persons [.plain "home"] [.plain "plate"]) :=
    .field "Person" [] _ none "home"
  have hcar : Schema.Grows (persons [.plain "home"] [.plain "plate"])
      (persons [.plain "home"] [.plain "plate", .plain "plate"]) :=
    .held "Person" [.plain "home", .deferred "home" Place.address] [.named "employer" "Company"]
      none "car" (.field "Car" [.plain "plate"] [] none "plate")
  have haddress : Schema.Grows (⟨"Address", [.plain "city"], none⟩ : Schema Place)
      ⟨"Address", [.plain "city"], some ⟨"Record", [.named "city" "City"], none⟩⟩ :=
    .supertype "Address" [.plain "city"] _
  have hcompany : Schema.Grows (⟨"Company", [.plain "title"], none⟩ : Schema Place)
      ⟨"Company", [.plain "id", .plain "title"], none⟩ :=
    .field "Company" [] _ none "id"
  have hknown : DataModel.Grows ⟨sparse.described, dense.root, sparse.provider⟩
      ⟨dense.described, dense.root, sparse.provider⟩ :=
    .known _ _ .address haddress fun other hother => absurd rfl hother
  have hentry : DataModel.Grows ⟨dense.described, dense.root, sparse.provider⟩
      ⟨dense.described, dense.root, companies [.plain "id", .plain "title"] none⟩ := by
    refine .entry _ _ "Company" rfl rfl hcompany fun other hother => ?_
    simp only [sparse, companies, if_neg hother]
  have hregistered : DataModel.Grows
      ⟨dense.described, dense.root, companies [.plain "id", .plain "title"] none⟩ dense := by
    refine .registered _ _ "Office" rfl rfl fun other hother => ?_
    simp only [companies, if_neg hother]
  have hgrows : Relation.ReflTransGen DataModel.Grows sparse dense :=
    .head (.root _ _ hroot) (.head (.root _ _ hcar) (.head hknown (.head hentry
      (.single hregistered))))
  have hvalid : sparse.check .default nestedExprs = .valid := by decide
  exact ⟨hgrows, hvalid, DataModel.check_of_grows hgrows .default nestedExprs hvalid⟩

end FilterScope
