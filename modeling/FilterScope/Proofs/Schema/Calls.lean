import FilterScope.Proofs.Schema.Registry
import FilterScope.Proofs.Schema.Walk

/-!
# The calls of resolution

A call of `resolve` is made when a type is asked for, while some number of other types wait. It has
returned as soon as a schema is handed over and no more than that number wait; the steps up to there
are its run (`Runs`). The recursive functions of resolution are followed along their runs, all four
together (`resolve_walks`): each comes to the state that stands for its result, or fails with its
fault. This needs no invariant. Where `resolve` holds a definition, the walk finds it by its name.

A state has one next state at most. So what is shown of one run of a call is true of every run, and
all steps go on to the same outcome.
-/

namespace FilterScope

open Relation (ReflTransGen)

variable {τ : Type} {defs : List TypeDefinition}

/-- Where steps leave no choice, every state on the way goes on to the one with no next step. -/
theorem reflTransGen_of_stuck {σ : Type} {step : σ → σ → Prop} {first second last : σ}
    (hunique : Relator.RightUnique step) (h : ReflTransGen step first second)
    (hlast : ReflTransGen step first last) (hstuck : ∀ next, ¬ step last next) :
    ReflTransGen step second last := by
  rcases ReflTransGen.total_of_right_unique hunique h hlast with hgoes | hback
  · exact hgoes
  · rcases hback.cases_head with rfl | ⟨next, hnext, -⟩
    · exact .refl
    · exact absurd hnext (hstuck next)

namespace Walk

/-! ## Runs -/

/-- A call that was made while a number of types waited has returned with a schema. -/
def Returned (level : Nat) (schema : Schema τ) (walk : Walk τ) : Prop :=
  walk.phase = .answered schema ∧ walk.waiting.length ≤ level

/-- A call that was made while a number of types waited has returned, or resolution has failed. -/
def Over (level : Nat) (walk : Walk τ) : Prop :=
  (∃ schema, walk.Returned level schema) ∨ ∃ fault, walk.phase = .failed fault

/-- A step that is taken before a call has returned. -/
def Goes (defs : List TypeDefinition) (level : Nat) (first second : Walk τ) : Prop :=
  (¬ ∃ schema, first.Returned level schema) ∧ first.next defs = some second

/-- Steps that are taken before a call has returned. -/
def Runs (defs : List TypeDefinition) (level : Nat) : Walk τ → Walk τ → Prop :=
  ReflTransGen (Goes defs level)

section Runs

variable {level : Nat} {pending visiting : List String} {built : Registry τ}
  {waiting : List (Waiting τ)} {draft : Draft τ} {innermost : Waiting τ} {name : String}
  {schema : Schema τ} {first second last : Walk τ}

/-- A state goes on to one state at most. -/
theorem Goes.rightUnique (defs : List TypeDefinition) (level : Nat) :
    Relator.RightUnique (Goes defs level : Walk τ → Walk τ → Prop) := fun _ _ _ h h' =>
  Option.some.inj (h.2.symm.trans h'.2)

theorem Over.not_goes (h : first.Over level) : ¬ Goes defs level first second := by
  rintro ⟨hopen, hnext⟩
  rcases h with hreturned | ⟨fault, hphase⟩
  · exact hopen hreturned
  · rw [next, hphase] at hnext
    cases hnext

theorem Over.of_answered (pending : List String) (built : Registry τ) (visiting : List String)
    (waiting : List (Waiting τ)) (schema : Schema τ) :
    Over waiting.length ⟨pending, built, visiting, waiting, .answered schema⟩ :=
  .inl ⟨schema, rfl, Nat.le_refl _⟩

theorem Runs.continues (h : Runs defs level first last) : Continues defs first last :=
  ReflTransGen.mono (fun _ _ hgoes => hgoes.2) _ _ h

/-- The steps before an inner call has returned are steps before an outer one has. -/
theorem Runs.mono {level' : Nat} (hle : level' ≤ level) (h : Runs defs level first last) :
    Runs defs level' first last :=
  ReflTransGen.mono (fun _ _ ⟨hopen, hnext⟩ =>
    ⟨fun ⟨schema, hphase, hlength⟩ => hopen ⟨schema, hphase, hlength.trans hle⟩, hnext⟩) _ _ h

/-- A call is over in one way only. -/
theorem Runs.eq_of_over {last' : Walk τ} (h : Runs defs level first last)
    (h' : Runs defs level first last') (hover : last.Over level) (hover' : last'.Over level) :
    last = last' := by
  have hruns : Runs defs level last last' :=
    reflTransGen_of_stuck (Goes.rightUnique defs level) h h' fun _ => hover'.not_goes
  rcases hruns.cases_head with heq | ⟨next, hgoes, -⟩
  · exact heq
  · exact absurd hgoes hover.not_goes

/-! The steps, one for each way that `resolve` goes. -/

theorem Goes.of_make
    (hmake : make defs ⟨pending, built, visiting, waiting, .working draft⟩ draft = second) :
    Goes defs level ⟨pending, built, visiting, waiting, .working draft⟩ second :=
  ⟨nofun, congrArg some hmake⟩

/-- A type that is finished is handed over. -/
theorem Goes.of_find? (hfind : built.find? name = some schema) :
    Goes defs level ⟨pending, built, visiting, waiting, .asked name⟩
      ⟨pending, built, visiting, waiting, .answered schema⟩ :=
  ⟨nofun, by simp only [next, begin?, hfind]⟩

/-- A type that is begun and asked for again closes a loop. -/
theorem Goes.of_mem (hnone : built.find? name = none) (hmem : name ∈ visiting) :
    Goes defs level ⟨pending, built, visiting, waiting, .asked name⟩
      ⟨pending, built, visiting, waiting, .failed (.cyclicReference (visiting ++ [name]))⟩ :=
  ⟨nofun, by simp only [next, begin?, hnone, hmem, if_true, fail]⟩

/-- A type that is neither finished nor begun is begun. -/
theorem Goes.of_definition? {definition : { definition // definition ∈ defs }}
    (hnone : built.find? name = none) (hmem : name ∉ visiting)
    (hfound : definition? defs name = some definition) :
    Goes defs level ⟨pending, built, visiting, waiting, .asked name⟩
      ⟨pending, built, visiting ++ [name], waiting,
        .working ⟨.empty name, definition.val.parts⟩⟩ :=
  ⟨nofun, by simp only [next, begin?, hnone, hmem, hfound, if_false, Option.map_some]⟩

/-- A type with no part left to make is registered and handed over. -/
theorem Goes.of_finished :
    Goes defs level ⟨pending, built, visiting ++ [name], waiting, .working ⟨schema, []⟩⟩
      ⟨pending, built.insert schema, visiting, waiting, .answered schema⟩ := by
  refine ⟨nofun, ?_⟩
  simp only [next, make, List.dropLast_concat]

/-- The type that has waited last goes on, as long as it belongs to the call. -/
theorem Goes.of_answered (h : level ≤ waiting.length) :
    Goes defs level ⟨pending, built, visiting, innermost :: waiting, .answered schema⟩
      ⟨pending, built, visiting, waiting, .working (innermost.resume schema)⟩ := by
  refine ⟨?_, rfl⟩
  rintro ⟨_, _, hle⟩
  exact Nat.not_succ_le_self _ (hle.trans h)

/-- What a part of resolution comes to when it is done by steps from a state, while the types of a
path are begun: it fails, or it gets to its last state and has kept the registry. -/
def Walks {α : Type} (defs : List TypeDefinition) (level : Nat) (first : Walk τ)
    (path : List String) (built : Registry τ) (last : α → Registry τ → Walk τ) :
    Except DefinitionFault (α × Registry τ) → Prop :=
  Yields (fun fault => ∃ failed, Runs defs level first failed ∧ failed.phase = .failed fault)
    fun out => Runs defs level first (last out.1 out.2) ∧ Keeps path built out.2

/-- Steps may come first. -/
theorem Walks.after {α : Type} {path : List String} {last : α → Registry τ → Walk τ}
    {result : Except DefinitionFault (α × Registry τ)}
    (h : Walks defs level second path built last result) (hruns : Runs defs level first second) :
    Walks defs level first path built last result := by
  cases result with
  | error fault =>
    obtain ⟨failed, hfailed, hphase⟩ := h
    exact ⟨failed, hruns.trans hfailed, hphase⟩
  | ok out => exact ⟨hruns.trans h.1, h.2⟩

/-- A draft that asks for a type goes on with the schema of that type. -/
theorem Walks.ask {result : Except DefinitionFault (Schema τ × Registry τ)}
    (hmake : make defs ⟨pending, built, visiting, waiting, .working draft⟩ draft =
      ⟨pending, built, visiting, innermost :: waiting, .asked name⟩)
    (h : Walks defs (waiting.length + 1)
      ⟨pending, built, visiting, innermost :: waiting, .asked name⟩ visiting built
      (fun schema built' => ⟨pending, built', visiting, innermost :: waiting, .answered schema⟩)
      result) :
    Walks defs waiting.length ⟨pending, built, visiting, waiting, .working draft⟩ visiting built
      (fun schema built' =>
        ⟨pending, built', visiting, waiting, .working (innermost.resume schema)⟩) result := by
  have hasks : Runs defs waiting.length ⟨pending, built, visiting, waiting, .working draft⟩
      ⟨pending, built, visiting, innermost :: waiting, .asked name⟩ :=
    .single (.of_make hmake)
  refine Walks.after ?_ hasks
  cases result with
  | error fault =>
    obtain ⟨failed, hfailed, hphase⟩ := h
    exact ⟨failed, hfailed.mono (Nat.le_succ _), hphase⟩
  | ok out =>
    obtain ⟨hruns, hkeeps⟩ := h
    exact ⟨(hruns.mono (Nat.le_succ _)).tail (.of_answered (Nat.le_refl _)), hkeeps⟩

end Runs

/-! ## What a call comes to -/

/-- What is finished is found under its name. -/
theorem resolve_stored (definition : { definition // definition ∈ defs }) (path : List String)
    (built : Registry τ) :
    Yields (fun _ => True) (fun out => out.2.find? definition.val.name = some out.1)
      (resolve defs definition path built) := by
  rw [resolve]
  split
  · next schema hfind => exact hfind
  · split
    · trivial
    · refine Yields.bind (.trivial _) fun supertype _ => Yields.bind (.trivial _) fun fields _ => ?_
      exact (Registry.find?_insert _ _ _).trans (if_pos rfl)

mutual

/-- A call comes to what `resolve` comes to, and leaves the visiting stack as it was. -/
theorem resolve_walks (definition : { definition // definition ∈ defs })
    (hfound : definition? defs definition.val.name = some definition) (path pending : List String)
    (built : Registry τ) (waiting : List (Waiting τ)) :
    Walks defs waiting.length ⟨pending, built, path, waiting, .asked definition.val.name⟩ path built
      (fun schema built' => ⟨pending, built', path, waiting, .answered schema⟩)
      (resolve defs definition path built) := by
  rw [resolve]
  split
  · next schema hfind => exact ⟨.single (.of_find? hfind), .refl path built⟩
  · next hnone =>
    split
    · next hpath => exact ⟨_, .single (.of_mem hnone hpath), rfl⟩
    · next hpath =>
      have hshorter : unvisited defs (path ++ [definition.val.name]) < unvisited defs path :=
        unvisited_lt definition.property hpath (List.mem_append_right _ List.mem_cons_self)
          (List.subset_append_left _ _)
      refine Yields.bind ((resolveSupertype_walks definition.val (path ++ [definition.val.name])
        pending built waiting).after (.single (.of_definition? hnone hpath hfound))) ?_
      rintro ⟨supertype, built₁⟩ ⟨hruns₁, hkeeps₁⟩
      refine Yields.bind ((resolveFields_walks definition.val (path ++ [definition.val.name])
        pending definition.val.fields [] supertype built₁ waiting).after hruns₁) ?_
      rintro ⟨fields, built₂⟩ ⟨hruns₂, hkeeps₂⟩
      refine ⟨hruns₂.tail .of_finished, ?_⟩
      exact ((hkeeps₁.trans hkeeps₂).insert hnone hpath).2
termination_by (unvisited defs path, 0)
decreasing_by
  all_goals exact Prod.Lex.left _ _ (by assumption)

/-- A type that is begun gets its supertype first. -/
theorem resolveSupertype_walks (owner : TypeDefinition) (path pending : List String)
    (built : Registry τ) (waiting : List (Waiting τ)) :
    Walks defs waiting.length
      ⟨pending, built, path, waiting, .working ⟨.empty owner.name, owner.parts⟩⟩ path built
      (fun supertype built' => ⟨pending, built', path, waiting,
        .working ⟨⟨owner.name, [], supertype⟩, owner.fields.map .field⟩⟩)
      (resolveSupertype defs owner path built) := by
  rw [resolveSupertype, TypeDefinition.parts]
  split
  · next hsupertype =>
    rw [hsupertype]
    exact ⟨.refl, .refl path built⟩
  · next name hsupertype =>
    rw [hsupertype]
    split
    · next hnone =>
      exact ⟨_, .single (.of_make rfl), by simp [make, hnone, fail, Schema.empty]⟩
    · next definition hdefinition =>
      obtain rfl := name_of_definition? hdefinition
      have hasked := resolve_walks definition hdefinition path pending built
        (⟨⟨.empty owner.name, owner.fields.map .field⟩, .supertype⟩ :: waiting)
      refine Yields.bind (Walks.ask ?_ hasked) ?_
      · simp [make, hdefinition, ask]
      · rintro ⟨schema, built'⟩ hwalks
        exact hwalks
termination_by (unvisited defs path, 1)

/-- Fields are made behind those that are made already, until no part is missing. -/
theorem resolveFields_walks (owner : TypeDefinition) (path pending : List String)
    (fields : List FieldDefinition) (before : List (Field τ)) (supertype : Option (Schema τ))
    (built : Registry τ) (waiting : List (Waiting τ)) :
    Walks defs waiting.length
      ⟨pending, built, path, waiting,
        .working ⟨⟨owner.name, before, supertype⟩, fields.map .field⟩⟩ path built
      (fun read built' => ⟨pending, built', path, waiting,
        .working ⟨⟨owner.name, before ++ read, supertype⟩, []⟩⟩)
      (resolveFields defs owner path fields built) := by
  cases fields with
  | nil =>
    rw [resolveFields]
    refine ⟨?_, .refl path built⟩
    simp only [List.append_nil, List.map_nil]
    exact .refl
  | cons field more =>
    rw [resolveFields]
    refine Yields.bind (resolveField_walks owner path pending field before supertype
      (more.map .field) built waiting) ?_
    rintro ⟨first, built₁⟩ ⟨hruns₁, hkeeps₁⟩
    refine Yields.bind ((resolveFields_walks owner path pending more (before ++ [first]) supertype
      built₁ waiting).after hruns₁) ?_
    rintro ⟨rest, built₂⟩ ⟨hruns₂, hkeeps₂⟩
    refine ⟨?_, hkeeps₁.trans hkeeps₂⟩
    simpa only [List.append_assoc, List.singleton_append] using hruns₂
termination_by (unvisited defs path, fields.length + 2)

/-- A field is made, and the parts behind it are left. -/
theorem resolveField_walks (owner : TypeDefinition) (path pending : List String)
    (field : FieldDefinition) (before : List (Field τ)) (supertype : Option (Schema τ))
    (parts : List Part) (built : Registry τ) (waiting : List (Waiting τ)) :
    Walks defs waiting.length
      ⟨pending, built, path, waiting,
        .working ⟨⟨owner.name, before, supertype⟩, .field field :: parts⟩⟩ path built
      (fun read built' => ⟨pending, built', path, waiting,
        .working ⟨⟨owner.name, before ++ [read], supertype⟩, parts⟩⟩)
      (resolveField defs owner path field built) := by
  obtain ⟨name, nested⟩ := field
  rw [resolveField]
  cases nested with
  | none => exact ⟨.single (.of_make rfl), .refl path built⟩
  | some nested =>
    dsimp only
    split
    · next hnone =>
      exact ⟨_, .single (.of_make rfl), by simp [make, hnone, fail]⟩
    · next definition hdefinition =>
      obtain rfl := name_of_definition? hdefinition
      split
      · next hreaches =>
        refine ⟨.single (.of_make ?_), .refl path built⟩
        simp only [make, hdefinition, hreaches, if_true, work, Draft.made, Schema.step]
      · next hreaches =>
        have hasked := resolve_walks definition hdefinition path pending built
          (⟨⟨⟨owner.name, before, supertype⟩, parts⟩, .field name⟩ :: waiting)
        refine Yields.bind (Walks.ask ?_ hasked) ?_
        · simp [make, hdefinition, ask, hreaches]
        · rintro ⟨schema, built'⟩ hwalks
          exact hwalks
termination_by (unvisited defs path, 1)

end

/-- What a call has done when it returns with a schema. -/
structure Settles (defs : List TypeDefinition) (definition : { definition // definition ∈ defs })
    (call : Walk τ) (schema : Schema τ) (last : Walk τ) : Prop where
  /-- the types that are begun are those that were begun -/
  visiting : last.visiting = call.visiting
  /-- the types that wait are those that waited -/
  waiting : last.waiting = call.waiting
  /-- every type that was finished has its schema still -/
  kept : Within call.built last.built
  /-- the type that was asked for has the schema that is returned -/
  stored : last.built.find? definition.val.name = some schema
  /-- the schema and the registry are those of `resolve` -/
  resolved : resolve defs definition call.visiting call.built = .ok (schema, last.built)

/-- A call ends, and it ends as `resolve` does. -/
theorem Reachable.call {call : Walk τ} {name : String} (h : Reachable defs call)
    (hphase : call.phase = .asked name) :
    ∃ definition, definition? defs name = some definition ∧
      (∃ last, Runs defs call.waiting.length call last ∧ last.Over call.waiting.length) ∧
      ∀ last, Runs defs call.waiting.length call last →
        (∀ schema, last.Returned call.waiting.length schema →
          Settles defs definition call schema last) ∧
        ∀ fault, last.phase = .failed fault →
          resolve defs definition call.visiting call.built = .error fault := by
  obtain ⟨definition, hfound⟩ := Option.ne_none_iff_exists'.mp fun hnone =>
    definition?_eq_none_iff.mp hnone (h.sound.asked name hphase)
  obtain ⟨pending, built, visiting, waiting, phase⟩ := call
  obtain rfl : phase = .asked name := hphase
  obtain rfl := name_of_definition? hfound
  have hcall := resolve_walks definition hfound visiting pending built waiting
  have hstored := resolve_stored definition visiting built
  refine ⟨definition, hfound, ?_⟩
  dsimp only
  cases hresolve : resolve defs definition visiting built with
  | error fault =>
    rw [hresolve] at hcall
    obtain ⟨failed, hruns, hfailed⟩ := hcall
    have hover : failed.Over waiting.length := .inr ⟨fault, hfailed⟩
    -- Wherever else the call may be over, it is in this state.
    refine ⟨⟨failed, hruns, hover⟩, fun last hlast => ⟨?_, ?_⟩⟩
    · intro schema hreturned
      obtain rfl := hruns.eq_of_over hlast hover (.inl ⟨schema, hreturned⟩)
      exact absurd (hfailed.symm.trans hreturned.1) nofun
    · intro fault' hfailed'
      obtain rfl := hruns.eq_of_over hlast hover (.inr ⟨fault', hfailed'⟩)
      rw [Phase.failed.inj (hfailed.symm.trans hfailed')]
  | ok out =>
    rw [hresolve] at hcall hstored
    obtain ⟨hruns, hkeeps⟩ := hcall
    have hover := Over.of_answered pending out.2 visiting waiting out.1
    refine ⟨⟨_, hruns, hover⟩, fun last hlast => ⟨?_, ?_⟩⟩
    · intro schema hreturned
      obtain rfl := hruns.eq_of_over hlast hover (.inl ⟨schema, hreturned⟩)
      obtain rfl := Phase.answered.inj hreturned.1
      exact ⟨rfl, rfl, hkeeps.kept, hstored, hresolve⟩
    · intro fault hfailed
      obtain rfl := hruns.eq_of_over hlast hover (.inr ⟨fault, hfailed⟩)
      cases hfailed

/-! ## Resolving all definitions -/

/-- Without repeated names, a definition is what is found under its name. -/
theorem definition?_of_mem (hnodup : (defs.map (·.name)).Nodup)
    (definition : { definition // definition ∈ defs }) :
    definition? defs definition.val.name = some definition := by
  cases hfound : definition? defs definition.val.name with
  | none => exact absurd ⟨definition, definition.property, rfl⟩ (definition?_eq_none_iff.mp hfound)
  | some found =>
    have heq : found.val = definition.val :=
      eq_of_name_eq hnodup found.property definition.property (name_of_definition? hfound)
    exact congrArg some (Subtype.ext heq)

/-- The turns of all definitions come to what `resolveAll` comes to. -/
theorem resolveAll_walks (hnodup : (defs.map (·.name)).Nodup)
    (pending : List { definition // definition ∈ defs }) (built : Registry τ) :
    ∃ last : Walk τ,
      Continues defs ⟨pending.map (·.val.name), built, [], [], .idle⟩ last ∧
        last.outcome? = some (resolveAll defs pending built) := by
  induction pending generalizing built with
  | nil => exact ⟨_, .refl, rfl⟩
  | cons definition more ih =>
    have hcall := resolve_walks definition (definition?_of_mem hnodup definition) []
      (more.map (·.val.name)) built []
    rw [resolveAll]
    cases hresolve : resolve defs definition [] built with
    | error fault =>
      rw [hresolve] at hcall
      obtain ⟨failed, hruns, hphase⟩ := hcall
      refine ⟨failed, .head rfl hruns.continues, ?_⟩
      rw [outcome?, hphase]
      rfl
    | ok out =>
      rw [hresolve] at hcall
      obtain ⟨last, hlast, houtcome⟩ := ih out.2
      exact ⟨last, .head rfl (hcall.1.continues.trans (.head rfl hlast)), houtcome⟩

/-- Resolution comes to the registry of the definitions, or to their fault. -/
theorem exists_reachable_outcome (hnodup : (defs.map (·.name)).Nodup) :
    ∃ last : Walk τ, Reachable defs last ∧ last.outcome? = some (Registry.ofDefinitions defs) := by
  obtain ⟨last, hlast, houtcome⟩ := resolveAll_walks hnodup defs.attach (∅ : Registry τ)
  have hnone : firstRepeated? [] (defs.map (·.name)) = none :=
    firstRepeated?_eq_none_iff.mpr ⟨hnodup, fun _ _ => List.not_mem_nil⟩
  have hnames : defs.attach.map (·.val.name) = defs.map (·.name) :=
    List.attach_map_val ..
  rw [hnames] at hlast
  refine ⟨last, hlast, ?_⟩
  rw [houtcome, Registry.ofDefinitions, hnone]

end Walk

open Walk

/-- **Resolution, step by step.** In every state that resolution comes to, the types that are begun
are different types that are defined and not finished. A type is asked for only if its name is
found among the definitions, so there is a next step until something has come out, and no more calls
are open than there are definitions, and one. Every call ends, as `resolve` does, and if it returns
it leaves behind what it found, but for the types that are finished by then (`Settles`). All steps
lead on to the registry of the definitions, or to their fault. -/
theorem ofDefinitions_walk (hnodup : (defs.map (·.name)).Nodup) :
    (∀ walk : Walk τ, Reachable defs walk →
      walk.visiting.Nodup ∧
      (∀ name ∈ walk.visiting, Defines defs name ∧ walk.built.find? name = none) ∧
      (∀ name, walk.phase = .asked name → (definition? defs name).isSome = true) ∧
      (walk.next defs = none ↔ walk.outcome?.isSome = true) ∧
      walk.depth ≤ defs.length + 1) ∧
    (∀ (call : Walk τ) (name : String), Reachable defs call → call.phase = .asked name →
      ∃ definition, definition? defs name = some definition ∧
        (∃ last, Runs defs call.waiting.length call last ∧ last.Over call.waiting.length) ∧
        ∀ last, Runs defs call.waiting.length call last →
          (∀ schema, last.Returned call.waiting.length schema →
            Settles defs definition call schema last) ∧
          ∀ fault, last.phase = .failed fault →
            resolve defs definition call.visiting call.built = .error fault) ∧
    ∃ last : Walk τ, last.outcome? = some (Registry.ofDefinitions defs) ∧
      ∀ walk, Reachable defs walk → Continues defs walk last := by
  refine ⟨fun walk h => ?_, fun call name h hphase => h.call hphase, ?_⟩
  · refine ⟨h.sound.distinct, h.sound.begun, fun name hphase => ?_, h.sound.next_eq_none_iff,
      h.sound.depth_le⟩
    obtain ⟨definition, hfound, -⟩ := h.call hphase
    exact Option.isSome_of_eq_some hfound
  · obtain ⟨last, hlast, houtcome⟩ := @exists_reachable_outcome τ defs hnodup
    have hend : last.next defs = none := by
      rw [hlast.sound.next_eq_none_iff, houtcome, Option.isSome_some]
    have hunique : Relator.RightUnique fun first second : Walk τ => first.next defs = some second :=
      fun _ _ _ h h' => Option.some.inj (h.symm.trans h')
    refine ⟨last, houtcome, fun walk h => ?_⟩
    refine reflTransGen_of_stuck hunique h hlast fun next hnext => ?_
    cases hend.symm.trans hnext

/-- A type that extends another, which has a field. -/
def extended : List TypeDefinition :=
  [⟨"A", some "B", []⟩, ⟨"B", none, [⟨"x", none⟩]⟩]

/-- Resolution of `extended`, when its first type has been begun and has asked for the other. -/
def extendedAsking : Walk Empty :=
  ⟨["B"], ∅, ["A"], [⟨⟨.empty "A", []⟩, .supertype⟩], .asked "B"⟩

theorem ofDefinitions_walk_extended :
    Reachable extended extendedAsking ∧ extendedAsking.depth ≤ 3 ∧
      ∃ last, Runs extended 1 extendedAsking last ∧ last.visiting = ["A"] ∧
        last.built.find? "B" = some ⟨"B", [.plain "x"], none⟩ := by
  have hnodup : (extended.map (·.name)).Nodup := by decide
  obtain ⟨hstates, hcalls, -⟩ := @ofDefinitions_walk Empty extended hnodup
  have hreachable : Reachable extended extendedAsking := by
    -- The first definition has its turn, the type is begun, and it asks for the type it extends.
    have hturn : Continues extended (start extended : Walk Empty) ⟨["B"], ∅, [], [], .asked "A"⟩ :=
      .single rfl
    exact (hturn.tail rfl).tail rfl
  obtain ⟨definition, hfound, -, hends⟩ := hcalls extendedAsking "B" hreachable rfl
  -- The other type is begun, gets its field and is finished.
  have hbegun : Runs extended 1 extendedAsking
      ⟨["B"], ∅, ["A", "B"], extendedAsking.waiting, .working ⟨.empty "B", [.field ⟨"x", none⟩]⟩⟩ :=
    .single ⟨nofun, rfl⟩
  have hruns := (hbegun.tail (.of_make rfl)).tail (.of_make rfl)
  have hsettles := (hends _ hruns).1 _ ⟨rfl, Nat.le_refl _⟩
  have hname := name_of_definition? hfound
  exact ⟨hreachable, (hstates _ hreachable).2.2.2.2, _, hruns, hsettles.visiting,
    hname ▸ hsettles.stored⟩

end FilterScope
