import FilterScope.Proofs.Check.Likeness

/-!
# What lies beyond the horizon

Two runs of a check whose scopes look alike have the same outcome, whatever else is different. Three
things are out of sight:

* what a supertype extends in turn, on the root and on the types that it nests;
* what is inside the types that are nested two levels down;
* how a nested type is stored: in the field, as a type known in advance, or by name.

So all of it can be painted over. `Scope.outline` keeps what is in sight, holds each nested type in
its field if there is a schema for it, needs no provider, and takes anything at all for the rest.
-/

namespace FilterScope

variable {τ τ' σ : Type}

/-! ## Painting over what is out of sight -/

/-- The field with another nested object in the place of its own. -/
def Field.outline (deeper : Nested τ → Nested σ) (field : Field τ) : Field σ :=
  ⟨field.name, field.nested.map deeper⟩

/-- The schema with other nested objects in its visible fields, and with another type for its
supertype to extend. -/
def Schema.outline (deeper : Nested τ → Nested σ) (beyond : Schema τ → Option (Schema σ))
    (schema : Schema τ) : Schema σ :=
  ⟨schema.typeName, schema.fields.map (Field.outline deeper), schema.supertype.map fun supertype =>
    ⟨supertype.typeName, supertype.fields.map (Field.outline deeper), beyond supertype⟩⟩

/-- The nested object with the outline of its schema in place, or with its name if there is no
schema. -/
def Nested.outline [Described τ] (provider : Provider τ) (deeper : Nested τ → Nested σ)
    (beyond : Schema τ → Option (Schema σ)) (nested : Nested τ) : Nested σ :=
  match nested.find provider with
  | .ok schema => .resolved (schema.outline deeper beyond)
  | .error typeName => .named typeName

/-- The scope with all that is out of sight replaced: by `deeper` what the nested types nest in
turn, and by `beyond` what the supertypes extend. -/
def Scope.outline [Described τ] (deeper : Nested τ → Nested σ)
    (beyond : Schema τ → Option (Schema σ)) (scope : Scope τ) : Scope σ :=
  ⟨scope.root.outline (Nested.outline scope.provider deeper beyond) beyond, .none, scope.config⟩

/-! ## An outline looks like the original -/

/-- The visible field with another nested object in the place of its own. -/
def VisibleField.outline (deeper : Nested τ → Nested σ) (found : VisibleField τ) :
    VisibleField σ :=
  ⟨found.field.outline deeper, found.declaredOn⟩

/-- An outline of a field is like the field. -/
theorem VisibleField.alike_outline (deeper : Nested τ → Nested σ) (found : VisibleField τ) :
    (found.outline deeper).Alike found where
  name := rfl
  declaredOn := rfl
  nested := Option.isSome_map

/-- An outline shows the outlines of the visible fields, in their order. -/
theorem Schema.visible_outline (deeper : Nested τ → Nested σ)
    (beyond : Schema τ → Option (Schema σ)) (schema : Schema τ) :
    (schema.outline deeper beyond).visible = schema.visible.map (VisibleField.outline deeper) := by
  obtain ⟨typeName, fields, _ | supertype⟩ := schema <;>
    simp [visible, own, outline, VisibleField.outline, Function.comp_def]

/-- An outline of a schema is like the schema. -/
theorem Schema.alike_outline (deeper : Nested τ → Nested σ)
    (beyond : Schema τ → Option (Schema σ)) (schema : Schema τ) :
    (schema.outline deeper beyond).Alike schema where
  typeName := rfl
  visible := by
    rw [visible_outline, List.forall₂_map_left_iff, List.forall₂_same]
    exact fun found _ => found.alike_outline deeper

variable [Described τ]

/-- Without a registry, an outline finds what is like the type that was nested. -/
theorem Nested.foundAlike_outline [Described σ] (provider : Provider τ)
    (deeper : Nested τ → Nested σ) (beyond : Schema τ → Option (Schema σ)) (nested : Nested τ) :
    FoundAlike ((nested.outline provider deeper beyond).find .none) (nested.find provider) := by
  rw [outline]
  cases nested.find provider with
  | ok schema => exact .found (schema.alike_outline deeper beyond)
  | error typeName => exact .missing typeName

/-- An outline of a scope is like the scope. -/
theorem Scope.alike_outline [Described σ] (deeper : Nested τ → Nested σ)
    (beyond : Schema τ → Option (Schema σ)) (scope : Scope τ) :
    (scope.outline deeper beyond).Alike scope where
  config := rfl
  typeName := rfl
  visible := by
    rw [outline, Schema.visible_outline, List.forall₂_map_left_iff, List.forall₂_same]
    refine fun found _ => ⟨found.alike_outline _, ?_⟩
    intro nested' hnested' nested hnested
    obtain ⟨original, horiginal, rfl⟩ := Option.map_eq_some_iff.mp hnested'
    obtain rfl := Option.some.inj (hnested.symm.trans horiginal)
    exact nested.foundAlike_outline scope.provider deeper beyond

/-! ## The horizon -/

/-- **What is out of sight has no say.** Take two roots with the same name, whose visible fields
agree one by one in name, declaring type and being plain, and whose corresponding nested fields lead
to schemas that agree as far, or to none under the same name. Then each filter has the same outcome
for both, however violations are reported. So a check comes to the same for any outline of what it
is made on. -/
theorem checkText_within_horizon [Described τ'] {root : Schema τ} {root' : Schema τ'}
    {provider : Provider τ} {provider' : Provider τ'} (htypeName : root.typeName = root'.typeName)
    (hvisible : List.Forall₂ (VisibleField.AlikeWithin provider provider')
      root.visible root'.visible) :
    (∀ config filter, Scope.checkText ⟨root, provider, config⟩ filter =
      Scope.checkText ⟨root', provider', config⟩ filter) ∧
    ∀ {σ : Type} [Described σ] (deeper : Nested τ → Nested σ)
      (beyond : Schema τ → Option (Schema σ)) (config : Config) (filter : String),
      (Scope.outline deeper beyond ⟨root, provider, config⟩).checkText filter =
        Scope.checkText ⟨root, provider, config⟩ filter := by
  constructor
  · intro config filter
    have halike : Scope.Alike ⟨root, provider, config⟩ ⟨root', provider', config⟩ :=
      ⟨rfl, htypeName, hvisible⟩
    exact halike.checkText filter
  · intro σ _ deeper beyond config filter
    exact (Scope.alike_outline deeper beyond ⟨root, provider, config⟩).checkText filter

/-- A team is led by a team, which is known in advance. -/
inductive Staff where
  | team

instance : Described Staff where
  schema _ :=
    ⟨"Team", [.plain "name", .deferred "lead" .team], some ⟨"Unit", [.plain "code"], none⟩⟩

/-- A team whose leader is looked up by name. Here a unit extends another type. -/
def namedTeam : Schema Empty :=
  ⟨"Team", [.plain "name", .named "lead" "Team"],
    some ⟨"Unit", [.plain "code"], some ⟨"Record", [.plain "secret"], none⟩⟩⟩

/-- Finds a team that is led by someone else. -/
def otherTeams : Provider Empty := fun typeName =>
  if typeName = "Team" then
    some ⟨"Team", [.plain "name", .resolved "lead" ⟨"Person", [.plain "age"], none⟩],
      some ⟨"Unit", [.plain "code"], none⟩⟩
  else
    none

theorem checkText_within_horizon_team :
    (Described.schema Staff.team).typeName = namedTeam.typeName ∧
      List.Forall₂ (VisibleField.AlikeWithin .none otherTeams)
        (Described.schema Staff.team).visible namedTeam.visible ∧
      ∀ config filter, Scope.checkText ⟨Described.schema Staff.team, .none, config⟩ filter =
        Scope.checkText ⟨namedTeam, otherTeams, config⟩ filter := by
  have hplain : ∀ name owner, VisibleField.AlikeWithin (.none : Provider Staff) otherTeams
      ⟨.plain name, owner⟩ ⟨.plain name, owner⟩ := fun name owner =>
    ⟨⟨rfl, rfl, rfl⟩, by rintro nested ⟨⟩⟩
  have hinside : (Described.schema Staff.team).Alike
      (⟨"Team", [.plain "name", .resolved "lead" ⟨"Person", [.plain "age"], none⟩],
        some ⟨"Unit", [.plain "code"], none⟩⟩ : Schema Empty) :=
    ⟨rfl, .cons ⟨rfl, rfl, rfl⟩ (.cons ⟨rfl, rfl, rfl⟩ (.cons ⟨rfl, rfl, rfl⟩ .nil))⟩
  have hlead : VisibleField.AlikeWithin (.none : Provider Staff) otherTeams
      ⟨.deferred "lead" .team, "Team"⟩ ⟨.named "lead" "Team", "Team"⟩ := by
    refine ⟨⟨rfl, rfl, rfl⟩, ?_⟩
    rintro nested ⟨⟩ nested' ⟨⟩
    exact .found hinside
  have hvisible : List.Forall₂ (VisibleField.AlikeWithin .none otherTeams)
      (Described.schema Staff.team).visible namedTeam.visible :=
    .cons (hplain "name" "Team") (.cons hlead (.cons (hplain "code" "Unit") .nil))
  have htypeName : (Described.schema Staff.team).typeName = namedTeam.typeName := rfl
  exact ⟨htypeName, hvisible, (checkText_within_horizon htypeName hvisible).1⟩

end FilterScope
