import Mathlib.Algebra.GroupWithZero.Nat
import Mathlib.Algebra.Order.BigOperators.Group.List
import Mathlib.Algebra.Order.Group.Nat
import FilterScope.Proofs.Schema.References

/-!
# The search for a chain of references, turn by turn

A search holds the names that it still has to visit and those that it has seen (`Frontier`). A
**turn** takes one of the names to visit. A name that has been seen is dropped. Any other is seen
from then on, and the names that its definition refers to are added to those to visit. The search is
over when the goal is taken, or when there is nothing left to take.

A name may be added many times. Which name a turn takes, and where it puts the ones that it adds, is
left open: what follows holds for every order, and so for the one that `search` keeps to.

* **The search ends.** A turn takes a name, and the references of a definition are added once at
  most. So every turn leaves a smaller `Frontier.budget`.
* **The search is right.** A turn preserves what is known of a search that has not found its goal
  (`Underway`): it is led to what it has to visit, and forgets no reference of what it has seen.
-/

namespace FilterScope

open Relation (ReflTransGen TransGen)

variable {defs : List TypeDefinition}

/-! ## Turns -/

/-- The names that the definition of a name refers to, and none if nothing defines it. -/
def referencesOf (defs : List TypeDefinition) (name : String) : List String :=
  (definition? defs name).elim [] (·.val.references)

/-- The references that the search follows are those of the definition. -/
theorem mem_referencesOf (hnodup : (defs.map (·.name)).Nodup) {name next : String} :
    next ∈ referencesOf defs name ↔ Refers defs name next := by
  cases hdefinition : definition? defs name with
  | none =>
    have hundefined := definition?_eq_none_iff.mp hdefinition
    rw [referencesOf, hdefinition]
    exact ⟨fun h => absurd h List.not_mem_nil, fun h => absurd h.defines hundefined⟩
  | some definition =>
    obtain rfl := name_of_definition? hdefinition
    rw [referencesOf, hdefinition]
    refine ⟨.of_mem_references definition.property, fun hrefers => ?_⟩
    -- The name has this one definition only, so the reference is one of it.
    rcases hrefers with ⟨d, hd, hname, h⟩ | ⟨d, hd, hname, h⟩
    all_goals
      obtain rfl := eq_of_name_eq hnodup hd definition.property hname
      simp [TypeDefinition.mem_references_iff, h]

/-- Where a search stands. -/
structure Frontier where
  /-- the names to visit, each as often as it was added -/
  pending : List String
  /-- the names that have been visited -/
  seen : List String

/-- A turn after which the search goes on. It may take any of the names to visit. -/
inductive Turn (defs : List TypeDefinition) (goal : String) : Frontier → Frontier → Prop where
  /-- a name that has been seen is dropped -/
  | skip {name : String} {pending rest seen : List String} (htaken : pending.Perm (name :: rest))
      (hgoal : name ≠ goal) (hseen : name ∈ seen) : Turn defs goal ⟨pending, seen⟩ ⟨rest, seen⟩
  /-- the references of a name that has not been seen are added -/
  | visit {name : String} {pending rest pending' seen : List String}
      (htaken : pending.Perm (name :: rest)) (hgoal : name ≠ goal) (hnew : name ∉ seen)
      (hadded : pending'.Perm (referencesOf defs name ++ rest)) :
      Turn defs goal ⟨pending, seen⟩ ⟨pending', name :: seen⟩

/-- A number of turns, one after the other. -/
inductive Turns (defs : List TypeDefinition) (goal : String) :
    Nat → Frontier → Frontier → Prop where
  /-- no turn -/
  | none (frontier : Frontier) : Turns defs goal 0 frontier frontier
  /-- a turn, and more -/
  | cons {count : Nat} {first second last : Frontier} (hturn : Turn defs goal first second)
      (hmore : Turns defs goal count second last) : Turns defs goal (count + 1) first last

/-! ## The search ends -/

/-- How many references there are in the definitions of names that have not been seen. -/
def unfollowed (defs : List TypeDefinition) (seen : List String) : Nat :=
  (defs.map fun definition =>
    if definition.name ∈ seen then 0 else definition.references.length).sum

/-- Seeing a name leaves no more references to be followed. -/
theorem unfollowed_cons_le (defs : List TypeDefinition) (name : String) (seen : List String) :
    unfollowed defs (name :: seen) ≤ unfollowed defs seen := by
  refine List.sum_le_sum fun definition _ => ?_
  split
  · exact Nat.zero_le _
  · next hnew => rw [if_neg fun hseen => hnew (List.mem_cons_of_mem _ hseen)]

/-- The references of a definition are followed when its name is seen for the first time. -/
theorem unfollowed_cons_of_mem {definition : TypeDefinition} {seen : List String}
    (hmem : definition ∈ defs) (hnew : definition.name ∉ seen) :
    definition.references.length + unfollowed defs (definition.name :: seen) ≤
      unfollowed defs seen := by
  induction defs with
  | nil => cases hmem
  | cons first defs ih =>
    rcases List.mem_cons.mp hmem with rfl | hmem
    · have hrest := unfollowed_cons_le defs definition.name seen
      simp only [unfollowed, List.map_cons, List.sum_cons] at hrest ⊢
      rw [if_pos List.mem_cons_self, if_neg hnew]
      omega
    · have hrest := ih hmem
      have hfirst := unfollowed_cons_le [first] definition.name seen
      simp only [unfollowed, List.map_cons, List.map_nil, List.sum_cons, List.sum_nil] at *
      omega

/-- Following the references of a new name takes them off what is left to be followed. -/
theorem unfollowed_visit {name : String} {seen : List String} (hnew : name ∉ seen) :
    (referencesOf defs name).length + unfollowed defs (name :: seen) ≤ unfollowed defs seen := by
  cases hdefinition : definition? defs name with
  | none =>
    rw [referencesOf, hdefinition]
    simpa using unfollowed_cons_le defs name seen
  | some definition =>
    obtain rfl := name_of_definition? hdefinition
    rw [referencesOf, hdefinition]
    exact unfollowed_cons_of_mem definition.property hnew

/-- How many turns a search can still take. -/
def Frontier.budget (defs : List TypeDefinition) (frontier : Frontier) : Nat :=
  frontier.pending.length + unfollowed defs frontier.seen

/-- Every turn takes from the budget. -/
theorem Turn.budget_lt {goal : String} {first second : Frontier}
    (h : Turn defs goal first second) : second.budget defs < first.budget defs := by
  cases h with
  | skip htaken _ _ =>
    have hlength := htaken.length_eq
    simp only [Frontier.budget, List.length_cons] at hlength ⊢
    omega
  | @visit name pending rest pending' seen htaken _ hnew hadded =>
    have hlength := htaken.length_eq
    have hlength' := hadded.length_eq
    have hfollowed := @unfollowed_visit defs name seen hnew
    simp only [Frontier.budget, List.length_cons, List.length_append] at hlength hlength' ⊢
    omega

/-- A search takes no more turns than its budget at the start. -/
theorem Turns.count_le {goal : String} {count : Nat} {first last : Frontier}
    (h : Turns defs goal count first last) : count ≤ first.budget defs := by
  induction h with
  | none => exact Nat.zero_le _
  | cons hturn _ ih => exact Nat.lt_of_le_of_lt ih hturn.budget_lt

/-- At the start there is one name to visit, and no reference has been followed. -/
theorem Frontier.budget_start (defs : List TypeDefinition) (start : String) :
    Frontier.budget defs ⟨[start], []⟩ = 1 + (defs.map (·.references.length)).sum := by
  simp [budget, unfollowed]

/-! ## The search is right -/

/-- What is known of a search that has not found its goal. -/
structure Underway (defs : List TypeDefinition) (start goal : String) (frontier : Frontier) :
    Prop where
  /-- the goal has not been seen -/
  missed : goal ∉ frontier.seen
  /-- no reference of a name that has been seen is forgotten -/
  closed : ∀ name ∈ frontier.seen, ∀ next, Refers defs name next →
    next ∈ frontier.pending ∨ next ∈ frontier.seen
  /-- the search has been to the start, or will go there -/
  started : start ∈ frontier.pending ∨ start ∈ frontier.seen
  /-- the start leads to what is to be visited -/
  led : ∀ name ∈ frontier.pending, Leads defs start name

namespace Underway

variable {start goal : String}

theorem begin (defs : List TypeDefinition) (start goal : String) :
    Underway defs start goal ⟨[start], []⟩ where
  missed := List.not_mem_nil
  closed _ hname := absurd hname List.not_mem_nil
  started := .inl List.mem_cons_self
  led _ hname := List.mem_singleton.mp hname ▸ .refl _

/-- A turn loses none of the names that were to be visited or had been seen: the one that it takes
is seen afterwards. -/
theorem mem_after {name other : String} {pending rest pending' seen seen' : List String}
    (htaken : pending.Perm (name :: rest)) (hrest : rest ⊆ pending') (hname : name ∈ seen')
    (hseen : seen ⊆ seen') (h : other ∈ pending ∨ other ∈ seen) :
    other ∈ pending' ∨ other ∈ seen' := by
  rcases h with hpending | hother
  · rcases List.mem_cons.mp (htaken.mem_iff.mp hpending) with rfl | hother
    · exact .inr hname
    · exact .inl (hrest hother)
  · exact .inr (hseen hother)

/-- A turn that does not find the goal keeps the search under way. -/
theorem turn (hnodup : (defs.map (·.name)).Nodup) {first second : Frontier}
    (h : Underway defs start goal first) (hturn : Turn defs goal first second) :
    Underway defs start goal second := by
  obtain ⟨hmissed, hclosed, hstarted, hled⟩ := h
  cases hturn with
  | @skip name pending rest seen htaken hgoal hseen =>
    have hafter {other : String} :=
      @mem_after name other _ _ rest _ seen htaken (List.Subset.refl _) hseen (List.Subset.refl _)
    exact ⟨hmissed, fun other hother next hnext => hafter (hclosed other hother next hnext),
      hafter hstarted, fun other hother =>
        hled other (htaken.mem_iff.mpr (List.mem_cons_of_mem _ hother))⟩
  | @visit name pending rest pending' seen htaken hgoal hnew hadded =>
    have hrest : rest ⊆ pending' := fun other hother =>
      hadded.mem_iff.mpr (List.mem_append_right _ hother)
    have hafter {other : String} :=
      @mem_after name other _ _ pending' _ (name :: seen) htaken hrest List.mem_cons_self
        (List.subset_cons_self _ _)
    refine ⟨?_, fun other hother next hnext => ?_, hafter hstarted, fun other hother => ?_⟩
    · exact List.not_mem_cons_of_ne_of_not_mem hgoal.symm hmissed
    · rcases List.mem_cons.mp hother with rfl | hother
      · exact .inl (hadded.mem_iff.mpr
          (List.mem_append_left _ ((mem_referencesOf hnodup).mpr hnext)))
      · exact hafter (hclosed other hother next hnext)
    · rcases List.mem_append.mp (hadded.mem_iff.mp hother) with hother | hother
      · have hname := hled name (htaken.mem_iff.mpr List.mem_cons_self)
        exact hname.trans (.of_refers ((mem_referencesOf hnodup).mp hother))
      · exact hled other (htaken.mem_iff.mpr (List.mem_cons_of_mem _ hother))

theorem turns (hnodup : (defs.map (·.name)).Nodup) {count : Nat} {first last : Frontier}
    (hturns : Turns defs goal count first last) (h : Underway defs start goal first) :
    Underway defs start goal last := by
  induction hturns with
  | none => exact h
  | cons hturn _ ih => exact ih (h.turn hnodup hturn)

/-- Nothing that has been seen leads to the goal once nothing is left to visit. -/
theorem not_leads_of_seen {seen : List String} (h : Underway defs start goal ⟨[], seen⟩)
    {name : String} (hname : name ∈ seen) : ¬ Leads defs name goal := by
  intro hleads
  induction hleads with
  | refl => exact h.missed hname
  | step hmem href _ ih =>
    rcases h.closed _ hname _ (.of_mem_references hmem href) with hnext | hnext
    · cases hnext
    · exact ih h hnext

/-- Once nothing is left to visit, the start has been seen. -/
theorem not_leads {frontier : Frontier} (h : Underway defs start goal frontier)
    (hpending : frontier.pending = []) : ¬ Leads defs start goal := by
  obtain ⟨pending, seen⟩ := frontier
  obtain rfl : pending = [] := hpending
  exact h.not_leads_of_seen (h.started.resolve_left List.not_mem_nil)

end Underway

/-! ## The answer -/

/-- A search is over: its goal may be taken, or nothing is left to take. -/
def Frontier.Over (goal : String) (answer : Bool) (frontier : Frontier) : Prop :=
  match answer with
  | true => goal ∈ frontier.pending
  | false => frontier.pending = []

/-- The search takes turns until it is over. -/
theorem exists_turns_search (defs : List TypeDefinition) (goal : String)
    (pending seen : List String) :
    ∃ count last, Turns defs goal count ⟨pending, seen⟩ last ∧
      last.Over goal (search defs goal pending seen) := by
  fun_induction search defs goal pending seen with
  | case1 seen => exact ⟨0, _, .none _, rfl⟩
  | case2 seen pending => exact ⟨0, _, .none _, List.mem_cons_self⟩
  | case3 name pending seen hgoal hseen ih =>
    obtain ⟨count, last, hturns, hover⟩ := ih
    exact ⟨count + 1, last, .cons (.skip (.refl _) hgoal hseen) hturns, hover⟩
  | case4 name pending seen hgoal hseen hnone ih =>
    obtain ⟨count, last, hturns, hover⟩ := ih
    have hadded : pending.Perm (referencesOf defs name ++ pending) := by
      rw [referencesOf, hnone]
      exact .refl _
    exact ⟨count + 1, last, .cons (.visit (.refl _) hgoal hseen hadded) hturns, hover⟩
  | case5 name pending seen hgoal hseen definition hdefinition ih =>
    obtain ⟨count, last, hturns, hover⟩ := ih
    have hadded : (definition.val.references ++ pending).Perm
        (referencesOf defs name ++ pending) := by
      rw [referencesOf, hdefinition]
      exact .refl _
    exact ⟨count + 1, last, .cons (.visit (.refl _) hgoal hseen hadded) hturns, hover⟩

/-- Whichever turns a search has taken, when it is over its answer says whether the start leads to
the goal. -/
theorem eq_true_iff_leads_of_turns (hnodup : (defs.map (·.name)).Nodup) {start goal : String}
    {count : Nat} {last : Frontier} {answer : Bool}
    (hturns : Turns defs goal count ⟨[start], []⟩ last) (hover : last.Over goal answer) :
    answer = true ↔ Leads defs start goal := by
  have hlast := (Underway.begin defs start goal).turns hnodup hturns
  cases answer with
  | true => exact iff_of_true rfl (hlast.led goal hover)
  | false => exact iff_of_false Bool.false_ne_true (hlast.not_leads hover)

/-- The search decides whether one name leads to another. -/
theorem reaches_eq_true_iff (hnodup : (defs.map (·.name)).Nodup) {start goal : String} :
    reaches defs start goal = true ↔ Leads defs start goal := by
  obtain ⟨count, last, hturns, hover⟩ := exists_turns_search defs goal [start] []
  exact eq_true_iff_leads_of_turns hnodup hturns hover

/-- **The search for a chain of references.** It ends: whichever of the names to visit each turn
takes, there is at most one turn for the start and one for each reference. And it is right: its
answer is yes if and only if the goal is the start, or a finite chain of references leads from the
start to the goal. So is the answer of a search that takes its names in any other order. -/
theorem reaches_decides (hnodup : (defs.map (·.name)).Nodup) (start goal : String) :
    (reaches defs start goal = true ↔ goal = start ∨ TransGen (Refers defs) start goal) ∧
    (∃ count last, Turns defs goal count ⟨[start], []⟩ last ∧
      last.Over goal (reaches defs start goal)) ∧
    (∀ count last, Turns defs goal count ⟨[start], []⟩ last →
      count ≤ 1 + (defs.map (·.references.length)).sum ∧
      ∀ answer, last.Over goal answer → answer = reaches defs start goal) := by
  have hanswer := @reaches_eq_true_iff _ hnodup start goal
  refine ⟨?_, exists_turns_search defs goal [start] [], fun count last hturns => ⟨?_, ?_⟩⟩
  · rw [hanswer, Leads.iff_reflTransGen, Relation.reflTransGen_iff_eq_or_transGen]
  · exact Frontier.budget_start defs start ▸ hturns.count_le
  · intro answer hover
    rw [Bool.eq_iff_iff, hanswer]
    exact eq_true_iff_leads_of_turns hnodup hturns hover

/-- Two types that refer to each other, one of them to itself as well, and the other to a type that
nothing defines. -/
def tangled : List TypeDefinition :=
  [⟨"A", some "B", [⟨"again", some "A"⟩]⟩,
   ⟨"B", none, [⟨"back", some "A"⟩, ⟨"lost", some "Ghost"⟩]⟩]

theorem reaches_decides_tangled :
    reaches tangled "A" "Ghost" = true ∧ reaches tangled "Ghost" "A" = false ∧
      ∀ count last, Turns tangled "Ghost" count ⟨["A"], []⟩ last → count ≤ 5 := by
  have hnodup : (tangled.map (·.name)).Nodup := by decide
  refine ⟨?_, ?_, fun count last hturns => ?_⟩
  · have hextends : Refers tangled "A" "B" := .inl ⟨_, List.mem_cons_self, rfl, rfl⟩
    have hnests : Refers tangled "B" "Ghost" :=
      .inr ⟨_, List.mem_cons_of_mem _ List.mem_cons_self, rfl, _,
        List.mem_cons_of_mem _ List.mem_cons_self, rfl⟩
    exact (reaches_decides hnodup "A" "Ghost").1.mpr (.inr (.head hextends (.single hnests)))
  · -- One turn takes the only name to visit, and nothing is added.
    have hturn : Turn tangled "A" ⟨["Ghost"], []⟩ ⟨[], ["Ghost"]⟩ :=
      .visit (.refl _) (by decide) List.not_mem_nil (by decide)
    have hturns : Turns tangled "A" 1 ⟨["Ghost"], []⟩ ⟨[], ["Ghost"]⟩ := .cons hturn (.none _)
    obtain ⟨-, -, hall⟩ := reaches_decides hnodup "Ghost" "A"
    exact ((hall 1 _ hturns).2 false rfl).symm
  · exact ((reaches_decides hnodup "A" "Ghost").2.2 count last hturns).1

end FilterScope
