import FilterScope.Proofs.Schema.Registry

/-!
# What is reported for a loop

Definitions whose supertypes loop are refused with a path: the types that were begun when one of
them was reached again, and that one once more. So the path is cut in two at the place where the
repeated name stands for the first time.

* **The lead** goes from where resolution started up to that place. Its steps are needs, and so
  references of either kind.
* **The loop** goes from there back to the same name. Its steps are needs too, but from each of its
  types the rest of the loop leads back to every other, and a step to a nested type is never taken
  when that type leads back. So they are all steps to supertypes (`isChain_extends_of_loop`).
-/

namespace FilterScope

open Relation (TransGen)

variable {τ : Type} {defs : List TypeDefinition}

theorem Needs.refers {name other : String} (h : Needs defs name other) : Refers defs name other :=
  h.imp_right And.left

/-! ## Chains of needs -/

/-- On a chain of needs a name leads to every one behind it. -/
theorem leads_of_isChain {before after : List String} {name other : String}
    (h : (before ++ name :: after).IsChain (Needs defs)) (hmem : other ∈ after) :
    Leads defs name other := by
  have hchain : (before ++ name :: after).IsChain (TransGen (Needs defs)) :=
    h.imp fun _ _ => .single
  rw [List.isChain_iff_pairwise, List.pairwise_append, List.pairwise_cons] at hchain
  obtain ⟨-, ⟨hbehind, -⟩, -⟩ := hchain
  exact leads_of_transGen_needs (hbehind other hmem)

/-- A chain of needs that ends where it begins is a chain of supertypes. -/
theorem isChain_extends_of_loop {name : String} {loop : List String}
    (h : (name :: (loop ++ [name])).IsChain (Needs defs)) :
    (name :: (loop ++ [name])).IsChain (Extends defs) := by
  -- The name leads to each type of the loop, and each of them leads to the name.
  have hto : ∀ other ∈ name :: (loop ++ [name]), Leads defs name other := by
    intro other hmem
    rcases List.mem_cons.mp hmem with rfl | hmem
    · exact .refl other
    · exact @leads_of_isChain _ [] _ _ _ h hmem
  have hback : ∀ other ∈ name :: (loop ++ [name]), Leads defs other name := by
    intro other hmem
    rw [← List.cons_append, List.mem_append, List.mem_singleton] at hmem
    rcases hmem with hmem | rfl
    · obtain ⟨before, after, hsplit⟩ := List.append_of_mem hmem
      rw [← List.cons_append, hsplit, List.append_assoc, List.cons_append] at h
      exact leads_of_isChain h (List.mem_append_right _ List.mem_cons_self)
    · exact .refl other
  refine h.imp_of_mem_imp fun a b ha hb hneeds => ?_
  exact hneeds.extends_of_leads_back ((hback b hb).trans (hto a ha))

/-- Each type on a path that is reached is defined, because it refers to the next one. -/
theorem Reached.defines {path : List String} {name begun : String} (h : Reached defs path name)
    (hmem : begun ∈ path) : Defines defs begun := by
  obtain ⟨before, after, rfl⟩ := List.append_of_mem hmem
  obtain ⟨next, more, hnext⟩ : ∃ next more, after ++ [name] = next :: more :=
    List.exists_cons_of_ne_nil (by simp)
  have hchain := h.chain
  rw [List.append_assoc, List.cons_append, hnext, List.isChain_append_cons_cons] at hchain
  exact hchain.2.1.refers.defines

/-! ## The path of a loop -/

/-- A path of references that leads to a loop of supertypes and once around it. -/
structure ShowsLoop (defs : List TypeDefinition) (lead : List String) (name : String)
    (loop : List String) : Prop where
  /-- no name is repeated but the one at which the loop is closed -/
  distinct : (lead ++ name :: loop).Nodup
  /-- all names are those of definitions -/
  defined : ∀ other ∈ lead ++ name :: loop, Defines defs other
  /-- every step is a reference -/
  refers : (lead ++ name :: (loop ++ [name])).IsChain (Refers defs)
  /-- the steps of the loop are to supertypes -/
  loops : (name :: (loop ++ [name])).IsChain (Extends defs)

/-- A name that is reached from itself shows a loop. -/
theorem Reached.showsLoop {lead loop : List String} {name : String}
    (h : Reached defs (lead ++ name :: loop) name) : ShowsLoop defs lead name loop := by
  have hchain := h.chain
  rw [List.append_assoc, List.cons_append] at hchain
  exact ⟨h.distinct, fun _ hmem => h.defines hmem, hchain.imp fun _ _ => Needs.refers,
    isChain_extends_of_loop hchain.right_of_append⟩

/-- The path of a reported loop shows it. -/
theorem exists_showsLoop_of_ofDefinitions {path : List String}
    (h : (Registry.ofDefinitions defs : Except DefinitionFault (Registry τ)) =
      .error (.cyclicReference path)) :
    ∃ lead name loop, path = lead ++ name :: (loop ++ [name]) ∧ ShowsLoop defs lead name loop := by
  have hnodup : (defs.map (·.name)).Nodup := by
    by_contra hrepeated
    obtain ⟨_, _, _, _, _, _, hduplicate⟩ := @ofDefinitions_eq_duplicateType τ _ hrepeated
    cases h.symm.trans hduplicate
  obtain ⟨begun, name, rfl, hmem, hreached⟩ := (traced_of_ofDefinitions hnodup h).path path rfl
  obtain ⟨lead, loop, rfl⟩ := List.append_of_mem hmem
  exact ⟨lead, name, loop, by rw [List.append_assoc, List.cons_append], hreached.showsLoop⟩

/-- **What is reported for a loop.** The path has at least two names, all of them defined, and each
refers to the next. The last one has come before, exactly once, and no other name is repeated. From
where it has come before, every step is to a supertype. -/
theorem ofDocument_cyclicReference {text : String} {path : List String}
    (hread : readDefinitions text = .ok defs)
    (h : (Registry.ofDocument text : Except LoadFault (Registry τ)) =
      .error (.invalid (.cyclicReference path))) :
    2 ≤ path.length ∧ (∀ name ∈ path, Defines defs name) ∧ path.IsChain (Refers defs) ∧
    path.dropLast.Nodup ∧
    ∃ lead name loop, path = lead ++ name :: (loop ++ [name]) ∧ name ∉ lead ∧ name ∉ loop ∧
      (name :: (loop ++ [name])).IsChain (Extends defs) := by
  have hfault : (Registry.ofDefinitions defs : Except DefinitionFault (Registry τ)) =
      .error (.cyclicReference path) := by
    rw [ofDocument_eq hread] at h
    cases hdefs : (Registry.ofDefinitions defs : Except DefinitionFault (Registry τ)) with
    | ok registry =>
      rw [hdefs] at h
      cases h
    | error fault =>
      rw [hdefs] at h
      cases h
      rfl
  obtain ⟨lead, name, loop, rfl, hshows⟩ := exists_showsLoop_of_ofDefinitions hfault
  have hdropLast : (lead ++ name :: (loop ++ [name])).dropLast = lead ++ name :: loop := by
    rw [← List.cons_append, ← List.append_assoc, List.dropLast_concat]
  have hdistinct := hshows.distinct
  rw [List.nodup_append, List.nodup_cons] at hdistinct
  obtain ⟨-, ⟨hloop, -⟩, hlead⟩ := hdistinct
  refine ⟨by simp; omega, fun other hother => ?_, hshows.refers, hdropLast ▸ hshows.distinct,
    lead, name, loop, rfl, fun hin => hlead name hin name List.mem_cons_self rfl, hloop,
    hshows.loops⟩
  have hmem : other ∈ lead ++ name :: loop := by
    simpa [or_comm, or_assoc, or_left_comm] using hother
  exact hshows.defined other hmem

/-- Two types that extend each other, and one that nests the first of them. -/
def branchLoop : List TypeDefinition :=
  [⟨"Office", none, [⟨"code", none⟩, ⟨"head", some "A"⟩]⟩, ⟨"A", some "B", []⟩,
   ⟨"B", some "A", [⟨"office", none⟩]⟩]

theorem ofDocument_cyclicReference_branchLoop :
    readDefinitions (writeDefinitions branchLoop) = .ok branchLoop ∧
      (Registry.ofDocument (writeDefinitions branchLoop) : Except LoadFault (Registry Empty)) =
        .error (.invalid (.cyclicReference ["Office", "A", "B", "A"])) ∧
      ["Office", "A", "B", "A"].IsChain (Refers branchLoop) ∧
      ∃ lead name loop, ["Office", "A", "B", "A"] = lead ++ name :: (loop ++ [name]) ∧
        (name :: (loop ++ [name])).IsChain (Extends branchLoop) := by
  have hread : readDefinitions (writeDefinitions branchLoop) = .ok branchLoop := by
    decide +kernel
  have hfault : (Registry.ofDefinitions branchLoop : Except DefinitionFault (Registry Empty)) =
      .error (.cyclicReference ["Office", "A", "B", "A"]) := by
    cbv
  have hdocument :
      (Registry.ofDocument (writeDefinitions branchLoop) : Except LoadFault (Registry Empty)) =
        .error (.invalid (.cyclicReference ["Office", "A", "B", "A"])) := by
    rw [ofDocument_eq hread, hfault]
    rfl
  obtain ⟨-, -, hrefers, -, lead, name, loop, hpath, -, -, hloops⟩ :=
    ofDocument_cyclicReference hread hdocument
  exact ⟨hread, hdocument, hrefers, lead, name, loop, hpath, hloops⟩

end FilterScope
