import Mathlib.Data.List.Perm.Subperm
import FilterScope.Proofs.Schema.References
import FilterScope.Schema.Walk

/-!
# The states of resolution

`Moves` says once what a step of resolution can do to a `Walk`. From it comes an invariant, `Sound`,
which has three parts.

* The types that are **begun** are different types, each of them defined and not finished.
* A type that is **asked for** is defined, so no lookup of a definition comes to nothing.
* The visiting stack and the types that **wait** go together (`Stacked`), so the calls that have not
  returned are as many as the definitions at most, and one.
-/

namespace FilterScope

open Relation (ReflTransGen)

variable {τ : Type} {defs : List TypeDefinition}

namespace Walk

/-! ## What a step can do -/

/-- The steps, by what they do to the state. -/
inductive Moves (defs : List TypeDefinition) : Walk τ → Walk τ → Prop where
  /-- the next definition has its turn -/
  | turn {name : String} {pending : List String} {built : Registry τ} {visiting : List String}
      {waiting : List (Waiting τ)} :
      Moves defs ⟨name :: pending, built, visiting, waiting, .idle⟩
        ⟨pending, built, visiting, waiting, .asked name⟩
  /-- the type is finished already -/
  | known {name : String} {pending : List String} {built : Registry τ} {visiting : List String}
      {waiting : List (Waiting τ)} {schema : Schema τ} (hfind : built.find? name = some schema) :
      Moves defs ⟨pending, built, visiting, waiting, .asked name⟩
        ⟨pending, built, visiting, waiting, .answered schema⟩
  /-- the definitions have a fault -/
  | failed {pending : List String} {built : Registry τ} {visiting : List String}
      {waiting : List (Waiting τ)} {phase : Phase τ} (fault : DefinitionFault) :
      Moves defs ⟨pending, built, visiting, waiting, phase⟩
        ⟨pending, built, visiting, waiting, .failed fault⟩
  /-- the type is begun -/
  | begun {name : String} {pending : List String} {built : Registry τ} {visiting : List String}
      {waiting : List (Waiting τ)} {parts : List Part} (hnone : built.find? name = none)
      (hvisiting : name ∉ visiting) :
      Moves defs ⟨pending, built, visiting, waiting, .asked name⟩
        ⟨pending, built, visiting ++ [name], waiting, .working ⟨.empty name, parts⟩⟩
  /-- a part of the type is made -/
  | made {pending : List String} {built : Registry τ} {visiting : List String}
      {waiting : List (Waiting τ)} {draft draft' : Draft τ}
      (hname : draft'.schema.typeName = draft.schema.typeName) :
      Moves defs ⟨pending, built, visiting, waiting, .working draft⟩
        ⟨pending, built, visiting, waiting, .working draft'⟩
  /-- the type asks for another, which is defined -/
  | asked {pending : List String} {built : Registry τ} {visiting : List String}
      {waiting : List (Waiting τ)} {draft : Draft τ} {innermost : Waiting τ} {name : String}
      (hname : innermost.draft.schema.typeName = draft.schema.typeName)
      (hdefines : Defines defs name) :
      Moves defs ⟨pending, built, visiting, waiting, .working draft⟩
        ⟨pending, built, visiting, innermost :: waiting, .asked name⟩
  /-- the type is finished -/
  | finished {pending : List String} {built : Registry τ} {visiting : List String}
      {waiting : List (Waiting τ)} {draft : Draft τ} :
      Moves defs ⟨pending, built, visiting, waiting, .working draft⟩
        ⟨pending, built.insert draft.schema, visiting.dropLast, waiting, .answered draft.schema⟩
  /-- the type that has asked goes on -/
  | resumed {pending : List String} {built : Registry τ} {visiting : List String}
      {waiting : List (Waiting τ)} {innermost : Waiting τ} {schema : Schema τ} {draft : Draft τ}
      (hname : draft.schema.typeName = innermost.draft.schema.typeName) :
      Moves defs ⟨pending, built, visiting, innermost :: waiting, .answered schema⟩
        ⟨pending, built, visiting, waiting, .working draft⟩
  /-- the type was asked for on its turn -/
  | returned {pending : List String} {built : Registry τ} {visiting : List String}
      {schema : Schema τ} :
      Moves defs ⟨pending, built, visiting, [], .answered schema⟩
        ⟨pending, built, visiting, [], .idle⟩

theorem typeName_made (schema : Schema τ) (step : Step τ) (parts : List Part) :
    (Draft.made schema step parts).schema.typeName = schema.typeName := by
  cases step <;> rfl

theorem defines_of_definition? {name : String} {definition : { definition // definition ∈ defs }}
    (h : definition? defs name = some definition) : Defines defs name :=
  ⟨definition, definition.property, name_of_definition? h⟩

theorem moves_of_make (walk : Walk τ) {draft : Draft τ} (hphase : walk.phase = .working draft) :
    Moves defs walk (walk.make defs draft) := by
  obtain ⟨pending, built, visiting, waiting, phase⟩ := walk
  obtain rfl : phase = .working draft := hphase
  obtain ⟨schema, parts⟩ := draft
  unfold make
  dsimp only
  split
  · exact .finished
  · split
    · exact .failed _
    · next hdefinition => exact .asked rfl (defines_of_definition? hdefinition)
  · exact .made (typeName_made _ _ _)
  · split
    · exact .failed _
    · next hdefinition =>
      split
      · exact .made (typeName_made _ _ _)
      · exact .asked rfl (defines_of_definition? hdefinition)

/-- What a step does is among the moves. -/
theorem moves_of_next {walk walk' : Walk τ} (h : walk.next defs = some walk') :
    Moves defs walk walk' := by
  obtain ⟨pending, built, visiting, waiting, phase⟩ := walk
  cases phase with
  | idle =>
    cases pending with
    | nil => cases h
    | cons name pending =>
      obtain rfl := Option.some.inj h
      exact .turn
  | asked name =>
    simp only [next, begin?] at h
    split at h
    · next hfind =>
      obtain rfl := Option.some.inj h
      exact .known hfind
    · next hnone =>
      split at h
      · obtain rfl := Option.some.inj h
        exact .failed _
      · next hvisiting =>
        obtain ⟨definition, -, rfl⟩ := Option.map_eq_some_iff.mp h
        exact .begun hnone hvisiting
  | working draft =>
    obtain rfl := Option.some.inj h
    exact moves_of_make _ rfl
  | answered schema =>
    obtain rfl := Option.some.inj h
    cases waiting with
    | nil => exact .returned
    | cons innermost waiting => exact .resumed (typeName_made _ _ _)
  | failed fault => cases h

/-! ## What is true of every state -/

/-- The types that wait, the outermost first. -/
def owners (waiting : List (Waiting τ)) : List String :=
  (waiting.map (·.draft.schema.typeName)).reverse

theorem owners_cons (innermost : Waiting τ) (waiting : List (Waiting τ)) :
    owners (innermost :: waiting) = owners waiting ++ [innermost.draft.schema.typeName] := by
  rw [owners, List.map_cons, List.reverse_cons, owners]

theorem length_owners (waiting : List (Waiting τ)) : (owners waiting).length = waiting.length := by
  rw [owners, List.length_reverse, List.length_map]

/-- The visiting stack holds the types that wait, and the one that is made. Where resolution has
failed it is left as it was. -/
def Stacked (waiting : List (Waiting τ)) (visiting : List String) : Phase τ → Prop
  | .working draft => visiting = owners waiting ++ [draft.schema.typeName]
  | .failed _ => owners waiting <+: visiting
  | _ => visiting = owners waiting

/-- The types that wait are begun, the outermost first. -/
theorem Stacked.owners_prefix {waiting : List (Waiting τ)} {visiting : List String}
    {phase : Phase τ} (h : Stacked waiting visiting phase) : owners waiting <+: visiting := by
  cases phase with
  | working draft =>
    obtain rfl : visiting = owners waiting ++ [draft.schema.typeName] := h
    exact List.prefix_append _ _
  | failed fault => exact h
  | idle | asked | answered =>
    obtain rfl : visiting = owners waiting := h
    exact List.prefix_refl _

/-- What is true of a state that resolution comes to. -/
structure Sound (defs : List TypeDefinition) (walk : Walk τ) : Prop where
  /-- no type is begun twice -/
  distinct : walk.visiting.Nodup
  /-- a type that is begun is defined, and not finished -/
  begun : ∀ name ∈ walk.visiting, Defines defs name ∧ walk.built.find? name = none
  /-- the types that have not had their turn are defined -/
  turns : ∀ name ∈ walk.pending, Defines defs name
  /-- a type that is asked for is defined -/
  asked : ∀ name, walk.phase = .asked name → Defines defs name
  /-- the visiting stack and the calls that have not returned go together -/
  stacked : Stacked walk.waiting walk.visiting walk.phase

theorem Sound.start (defs : List TypeDefinition) : Sound defs (start defs : Walk τ) where
  distinct := List.nodup_nil
  begun := nofun
  turns _ hname := List.mem_map.mp hname
  asked := nofun
  stacked := rfl

/-- Every move keeps the invariant. -/
theorem Sound.moves {walk walk' : Walk τ} (h : Sound defs walk) (hmoves : Moves defs walk walk') :
    Sound defs walk' := by
  obtain ⟨hdistinct, hbegun, hturns, hasked, hstacked⟩ := h
  cases hmoves with
  | turn =>
    obtain ⟨hname, hmore⟩ := List.forall_mem_cons.mp hturns
    exact ⟨hdistinct, hbegun, hmore, fun _ heq => Phase.asked.inj heq ▸ hname, hstacked⟩
  | known hfind => exact ⟨hdistinct, hbegun, hturns, nofun, hstacked⟩
  | failed fault => exact ⟨hdistinct, hbegun, hturns, nofun, hstacked.owners_prefix⟩
  | @begun name _ _ _ _ _ hnone hvisiting =>
    refine ⟨?_, ?_, hturns, nofun, congrArg (· ++ [name]) hstacked⟩
    · refine hdistinct.append (List.nodup_singleton name) ?_
      rwa [List.disjoint_singleton]
    · exact List.forall_mem_append.mpr
        ⟨hbegun, List.forall_mem_singleton.mpr ⟨hasked name rfl, hnone⟩⟩
  | made hname =>
    refine ⟨hdistinct, hbegun, hturns, nofun, ?_⟩
    simpa only [Stacked, hname] using hstacked
  | asked hname hdefines =>
    refine ⟨hdistinct, hbegun, hturns, fun _ heq => Phase.asked.inj heq ▸ hdefines, ?_⟩
    simpa only [Stacked, owners_cons, hname] using hstacked
  | @finished _ built visiting waiting draft =>
    obtain rfl : visiting = owners waiting ++ [draft.schema.typeName] := hstacked
    obtain ⟨howners, -, hlast⟩ := List.nodup_append.mp hdistinct
    rw [List.dropLast_concat]
    refine ⟨howners, fun name hname => ?_, hturns, nofun, rfl⟩
    -- The type that is finished has left the stack, and is none of those still on it.
    obtain ⟨hdefines, hnone⟩ := hbegun name (List.mem_append_left _ hname)
    have hne : draft.schema.typeName ≠ name := (hlast name hname _ List.mem_cons_self).symm
    exact ⟨hdefines, (Registry.find?_insert_of_ne built hne).trans hnone⟩
  | resumed hname =>
    refine ⟨hdistinct, hbegun, hturns, nofun, ?_⟩
    simpa only [Stacked, owners_cons, hname] using hstacked
  | returned => exact ⟨hdistinct, hbegun, hturns, nofun, hstacked⟩

/-- Steps lead from one state to another. -/
def Continues (defs : List TypeDefinition) : Walk τ → Walk τ → Prop :=
  ReflTransGen fun first second => first.next defs = some second

/-- A state that resolution of the definitions comes to. -/
def Reachable (defs : List TypeDefinition) (walk : Walk τ) : Prop :=
  Continues defs (start defs) walk

/-- Every reachable state has the invariant. -/
theorem Reachable.sound {walk : Walk τ} (h : Reachable defs walk) : Sound defs walk := by
  induction h with
  | refl => exact .start defs
  | tail _ hnext ih => exact ih.moves (moves_of_next hnext)

/-- The types that wait are begun, and no more types are begun than are defined. -/
theorem Sound.depth_le {walk : Walk τ} (h : Sound defs walk) : walk.depth ≤ defs.length + 1 := by
  have hsubset : walk.visiting ⊆ defs.map (·.name) := fun name hname =>
    List.mem_map.mpr (h.begun name hname).1
  have hvisiting := (List.subperm_of_subset h.distinct hsubset).length_le
  have howners := h.stacked.owners_prefix.length_le
  rw [length_owners] at howners
  rw [List.length_map] at hvisiting
  rw [depth]
  omega

/-- There is a next step until something has come out: no lookup of a definition fails. -/
theorem Sound.next_eq_none_iff {walk : Walk τ} (h : Sound defs walk) :
    walk.next defs = none ↔ walk.outcome?.isSome = true := by
  obtain ⟨pending, built, visiting, waiting, phase⟩ := walk
  cases phase with
  | idle => cases pending <;> simp [next, outcome?]
  | asked name =>
    have hdefinition : definition? defs name ≠ none := fun hnone =>
      definition?_eq_none_iff.mp hnone (h.asked name rfl)
    simp only [next, begin?, outcome?]
    split
    · simp
    · split <;> simp [hdefinition]
  | working draft => simp [next, outcome?]
  | answered schema => simp [next, outcome?]
  | failed fault => simp [next, outcome?]

end Walk

end FilterScope
