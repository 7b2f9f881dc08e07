import FilterScope.Proofs.Check.Growth

/-!
# What a schema shows that was written down in steps

A schema is written down in steps of two kinds: a step declares a field, in whichever of the four
forms a field has, or it names the supertype. The two kinds do not interfere. Whatever their order,
the schema depends on two things only (`Schema.ofSteps_eq`): the fields that the steps declare, in
the order of the steps, and the supertype that they name last. Fields are never dropped, so a name
may be declared several times, while a supertype takes the place of the one named before it.

Looking a name up is looking for the earliest field of that name, among the declared fields first
and then among those that the supertype declares itself (`Schema.field?_eq_some_iff_earliest`).
-/

namespace FilterScope

variable {τ : Type}

/-! ## What steps say -/

namespace Step

/-- The field that a step declares, if it declares one. -/
def field? : Step τ → Option (Field τ)
  | .field declared => some declared
  | .supertype _ => none

/-- The supertype that a step names, if it names one. -/
def supertype? : Step τ → Option (Schema τ)
  | .field _ => none
  | .supertype schema => some schema

/-- The fields that steps declare, in the order of the steps. -/
def declared (steps : List (Step τ)) : List (Field τ) :=
  steps.filterMap field?

/-- The supertype that steps name last. -/
def extended? (steps : List (Step τ)) : Option (Schema τ) :=
  (steps.filterMap supertype?).getLast?

/-- The same step, but a supertype that it names extends what it is told to. -/
def extending (beyond : Schema τ → Option (Schema τ)) : Step τ → Step τ
  | .field declared => .field declared
  | .supertype schema => .supertype { schema with supertype := beyond schema }

theorem declared_cons_supertype (schema : Schema τ) (more : List (Step τ)) :
    declared (.supertype schema :: more) = declared more :=
  List.filterMap_cons_none rfl

theorem declared_extending (beyond : Schema τ → Option (Schema τ)) (steps : List (Step τ)) :
    declared (steps.map (extending beyond)) = declared steps := by
  have hstep : field? ∘ extending beyond = (field? : Step τ → _) := by
    funext step
    cases step <;> rfl
  rw [declared, List.filterMap_map, hstep, declared]

theorem extended?_extending (beyond : Schema τ → Option (Schema τ)) (steps : List (Step τ)) :
    extended? (steps.map (extending beyond)) =
      (extended? steps).map fun schema => { schema with supertype := beyond schema } := by
  have hstep : supertype? ∘ extending beyond = fun step : Step τ =>
      step.supertype?.map fun schema => { schema with supertype := beyond schema } := by
    funext step
    cases step <;> rfl
  rw [extended?, List.filterMap_map, hstep, ← List.map_filterMap, List.getLast?_map, extended?]

/-- A supertype that is named is the one that counts, unless another is named after it. -/
theorem extended?_cons_supertype (schema : Schema τ) (more : List (Step τ)) :
    extended? (.supertype schema :: more) = (extended? more).or (some schema) := by
  have hfirst : (Step.supertype schema).supertype? = some schema := rfl
  rw [extended?, List.filterMap_cons_some hfirst, List.getLast?_cons, extended?]
  cases (more.filterMap supertype?).getLast? <;> rfl

end Step

/-! ## What steps make -/

namespace Schema

/-- A run of steps adds the fields that it declares, and puts the supertype that it names last in
place of the one before. -/
theorem foldl_step (schema : Schema τ) (steps : List (Step τ)) :
    steps.foldl step schema =
      ⟨schema.typeName, schema.fields ++ Step.declared steps,
        (Step.extended? steps).or schema.supertype⟩ := by
  induction steps generalizing schema with
  | nil =>
    obtain ⟨typeName, fields, supertype⟩ := schema
    simp [Step.declared, Step.extended?]
  | cons first more ih =>
    rw [List.foldl_cons, ih]
    cases first with
    | field declared => simp [step, Step.declared, Step.extended?, Step.field?, Step.supertype?]
    | supertype supertype =>
      rw [Step.declared_cons_supertype, Step.extended?_cons_supertype, Option.or_assoc]
      rfl

/-- The steps leave the fields that they declare, and the supertype of the last step that sets one.
-/
theorem ofSteps_eq (typeName : String) (steps : List (Step τ)) :
    ofSteps typeName steps = ⟨typeName, Step.declared steps, Step.extended? steps⟩ := by
  simp [ofSteps, foldl_step, empty]

/-! ## What a name stands for -/

/-- A field is the earliest one of a name in a list of fields. -/
structure IsEarliest (fields : List (Field τ)) (name : String) (field : Field τ) : Prop where
  /-- it has the name -/
  named : field.name = name
  /-- no field before it has -/
  first : ∃ before after, fields = before ++ field :: after ∧
    ∀ earlier ∈ before, earlier.name ≠ name

/-- What is found by name is the earliest field of that name. -/
theorem find?_name_eq_some_iff {fields : List (Field τ)} {name : String} {field : Field τ} :
    fields.find? (·.name == name) = some field ↔ IsEarliest fields name field := by
  simp only [List.find?_eq_some_iff_append, beq_iff_eq, Bool.not_eq_eq_eq_not, Bool.not_true,
    beq_eq_false_iff_ne]
  exact ⟨fun ⟨hname, hfirst⟩ => ⟨hname, hfirst⟩, fun ⟨hname, hfirst⟩ => ⟨hname, hfirst⟩⟩

theorem declared?_eq (schema : Schema τ) (name : String) :
    schema.declared? name =
      (schema.fields.find? (·.name == name)).map (⟨·, schema.typeName⟩) := by
  rw [declared?, own, List.find?_map]
  rfl

/-- A type's own field is found where it is the earliest of its name. -/
theorem declared?_eq_some_iff {schema : Schema τ} {name : String} {found : VisibleField τ} :
    schema.declared? name = some found ↔
      ∃ field, IsEarliest schema.fields name field ∧ found = ⟨field, schema.typeName⟩ := by
  simp only [declared?_eq, Option.map_eq_some_iff, find?_name_eq_some_iff]
  exact exists_congr fun field => and_congr_right fun _ => eq_comm

theorem declared?_eq_none_iff {schema : Schema τ} {name : String} :
    schema.declared? name = none ↔ ∀ field ∈ schema.fields, field.name ≠ name := by
  simp [declared?_eq]

/-- A field is the type's own earliest, or the supertype's where the type has none. -/
theorem field?_eq_some_iff_earliest {schema : Schema τ} {name : String} {found : VisibleField τ} :
    schema.field? name = some found ↔
      (∃ field, IsEarliest schema.fields name field ∧ found = ⟨field, schema.typeName⟩) ∨
      (∀ field ∈ schema.fields, field.name ≠ name) ∧
        ∃ supertype, schema.supertype = some supertype ∧
          ∃ field, IsEarliest supertype.fields name field ∧
            found = ⟨field, supertype.typeName⟩ := by
  simp only [field?_eq, Option.or_eq_some_iff, Option.bind_eq_some_iff, declared?_eq_some_iff,
    declared?_eq_none_iff]

/-- No field is found where neither the type nor its supertype declares one. -/
theorem field?_eq_none_iff_declared {schema : Schema τ} {name : String} :
    schema.field? name = none ↔
      (∀ field ∈ schema.fields, field.name ≠ name) ∧
        ∀ supertype, schema.supertype = some supertype →
          ∀ field ∈ supertype.fields, field.name ≠ name := by
  simp only [field?_eq, Option.or_eq_none_iff, Option.bind_eq_none_iff, declared?_eq_none_iff]

/-! ## Schemas that are written down -/

/-- **What a written schema shows.** Write a schema down in any steps. Its visible fields are those
that the steps declare, in the order of the steps and as fields of the type itself, and then those
that the supertype named last declares itself, as fields of that supertype; names may be repeated. A
name stands for the earliest declared field of the name, and only if there is none for the earliest
one that the supertype declares. Steps of the two kinds can change places as long as those of each
kind stay in order, and whatever the supertypes extend in turn is not seen. -/
theorem ofSteps_shows (typeName : String) (steps : List (Step τ)) :
    (ofSteps typeName steps).visible =
      (Step.declared steps).map (⟨·, typeName⟩) ++
        (Step.extended? steps).elim [] (fun supertype =>
          supertype.fields.map (⟨·, supertype.typeName⟩)) ∧
    (∀ name found, (ofSteps typeName steps).field? name = some found ↔
      (∃ field, IsEarliest (Step.declared steps) name field ∧ found = ⟨field, typeName⟩) ∨
      (∀ field ∈ Step.declared steps, field.name ≠ name) ∧
        ∃ supertype, Step.extended? steps = some supertype ∧
          ∃ field, IsEarliest supertype.fields name field ∧
            found = ⟨field, supertype.typeName⟩) ∧
    (∀ name, (ofSteps typeName steps).field? name = none ↔
      (∀ field ∈ Step.declared steps, field.name ≠ name) ∧
        ∀ supertype, Step.extended? steps = some supertype →
          ∀ field ∈ supertype.fields, field.name ≠ name) ∧
    (∀ moved : List (Step τ), moved.filterMap Step.field? = steps.filterMap Step.field? →
      moved.filterMap Step.supertype? = steps.filterMap Step.supertype? →
        ofSteps typeName moved = ofSteps typeName steps) ∧
    (∀ beyond : Schema τ → Option (Schema τ),
      (ofSteps typeName (steps.map (Step.extending beyond))).visible =
        (ofSteps typeName steps).visible ∧
      ∀ name, (ofSteps typeName (steps.map (Step.extending beyond))).field? name =
        (ofSteps typeName steps).field? name) := by
  refine ⟨?_, ?_, ?_, ?_, fun beyond => ?_⟩
  · rw [ofSteps_eq]
    rfl
  · intro name found
    rw [ofSteps_eq, field?_eq_some_iff_earliest]
  · intro name
    rw [ofSteps_eq, field?_eq_none_iff_declared]
  · intro moved hfields hsupertypes
    rw [ofSteps_eq, ofSteps_eq, Step.declared, Step.extended?, hfields, hsupertypes]
    rfl
  · have hvisible : (ofSteps typeName (steps.map (Step.extending beyond))).visible =
        (ofSteps typeName steps).visible := by
      rw [ofSteps_eq, ofSteps_eq, Step.declared_extending, Step.extended?_extending]
      cases Step.extended? steps <;> rfl
    exact ⟨hvisible, fun name => by rw [field?, hvisible, field?]⟩

/-- Members of a staff have a name, and extend a type with a date. -/
def staff : Schema Empty :=
  ⟨"Staff", [.plain "id", .plain "name"], some ⟨"Record", [.plain "date"], none⟩⟩

/-- Clerks extend records first and a staff in the end, and declare the field `id` twice. -/
def clerkSteps : List (Step Empty) :=
  [.supertype ⟨"Record", [.plain "date"], none⟩, .field (.named "id" "Badge"), .supertype staff,
   .field (.plain "id")]

/-- The same steps, the fields first. -/
def movedClerkSteps : List (Step Empty) :=
  [.field (.named "id" "Badge"), .field (.plain "id"),
   .supertype ⟨"Record", [.plain "date"], none⟩, .supertype staff]

theorem ofSteps_shows_clerk :
    movedClerkSteps.filterMap Step.field? = clerkSteps.filterMap Step.field? ∧
      movedClerkSteps.filterMap Step.supertype? = clerkSteps.filterMap Step.supertype? ∧
      ofSteps "Clerk" movedClerkSteps = ofSteps "Clerk" clerkSteps ∧
      (ofSteps "Clerk" clerkSteps).field? "id" = some ⟨.named "id" "Badge", "Clerk"⟩ ∧
      (ofSteps "Clerk" clerkSteps).field? "name" = some ⟨.plain "name", "Staff"⟩ ∧
      (ofSteps "Clerk" clerkSteps).field? "date" = none := by
  obtain ⟨-, hsome, hnone, hmoved, -⟩ := ofSteps_shows "Clerk" clerkSteps
  have hid : IsEarliest (Step.declared clerkSteps) "id" (.named "id" "Badge") :=
    ⟨rfl, [], [.plain "id"], rfl, by simp⟩
  have hname : IsEarliest staff.fields "name" (.plain "name") :=
    ⟨rfl, [.plain "id"], [], rfl, by simp [Field.plain]⟩
  have hsteps : Step.declared clerkSteps = [.named "id" "Badge", .plain "id"] := rfl
  have hdeclared : ∀ field ∈ Step.declared clerkSteps, field.name = "id" := by
    simp [hsteps, Field.plain, Field.named]
  refine ⟨rfl, rfl, hmoved _ rfl rfl, ?_, ?_, ?_⟩
  · exact (hsome _ _).mpr (.inl ⟨_, hid, rfl⟩)
  · refine (hsome _ _).mpr (.inr ⟨fun field hfield => ?_, staff, rfl, _, hname, rfl⟩)
    simp [hdeclared field hfield]
  · refine (hnone _).mpr ⟨fun field hfield => ?_, fun supertype hsupertype => ?_⟩
    · simp [hdeclared field hfield]
    · obtain rfl : staff = supertype := Option.some.inj hsupertype
      simp [staff, Field.plain]

end Schema

end FilterScope
