/-!
# Type definitions and the references between them

A list of type definitions describes a set of schemas by name: a definition may extend a type and
its fields may nest types, and each such mention is a **reference**. References form a graph over
names, which may be cyclic and may lead to names that nothing defines.

* `Leads defs a b` says that a chain of references leads from `a` to `b`; the empty chain counts.
* `reaches defs a b` decides it, by a search that keeps the names it has been to.

The search ends because each step either goes to a defined name for the first time or takes an
entry off the list of names still to visit.
-/

namespace FilterScope

/-! ## Definitions -/

/-- A field as a definition declares it. -/
structure FieldDefinition where
  /-- the name of the field -/
  name : String
  /-- the name of the type that the field nests; none for a plain field -/
  nested : Option String
  deriving DecidableEq, Repr

/-- The definition of a type. -/
structure TypeDefinition where
  /-- the name of the type -/
  name : String
  /-- the name of the type that it extends -/
  supertype : Option String
  /-- the fields that it declares -/
  fields : List FieldDefinition
  deriving DecidableEq, Repr

/-- The names that a definition refers to: the type it extends, then the types its fields nest. -/
def TypeDefinition.references (definition : TypeDefinition) : List String :=
  definition.supertype.toList ++ definition.fields.filterMap (·.nested)

/-- The first definition of a name, with the fact that it is one of the definitions. -/
def definition? (defs : List TypeDefinition) (name : String) :
    Option { definition // definition ∈ defs } :=
  match h : defs.find? (·.name == name) with
  | none => none
  | some definition => some ⟨definition, List.mem_of_find?_eq_some h⟩

/-- A definition that is found has the name under which it was looked for. -/
theorem name_of_definition? {defs : List TypeDefinition} {name : String}
    {definition : { definition // definition ∈ defs }}
    (h : definition? defs name = some definition) : definition.val.name = name := by
  unfold definition? at h
  split at h
  · cases h
  · next hfind =>
    obtain rfl := Option.some.inj h
    simpa using List.find?_some hfind

/-! ## Definitions not yet visited -/

/-- How many definitions have a name outside the list. -/
def unvisited (defs : List TypeDefinition) (names : List String) : Nat :=
  defs.countP (·.name ∉ names)

/-- The more names are visited, the fewer definitions are not. -/
theorem unvisited_le_of_subset {defs : List TypeDefinition} {names names' : List String}
    (h : names ⊆ names') : unvisited defs names' ≤ unvisited defs names := by
  refine List.countP_mono_left fun definition _ hout => ?_
  simp only [decide_eq_true_eq] at hout ⊢
  exact fun hin => hout (h hin)

/-- Going to a defined name for the first time leaves fewer definitions unvisited. -/
theorem unvisited_lt {defs : List TypeDefinition} {names names' : List String}
    {definition : TypeDefinition} (hmem : definition ∈ defs) (hout : definition.name ∉ names)
    (hin : definition.name ∈ names') (h : names ⊆ names') :
    unvisited defs names' < unvisited defs names := by
  induction defs with
  | nil => cases hmem
  | cons d defs ih =>
    simp only [unvisited, List.countP_cons, decide_eq_true_eq] at ih ⊢
    rcases List.mem_cons.mp hmem with rfl | hmem
    · have := @unvisited_le_of_subset defs _ _ h
      simp only [unvisited] at this
      simp only [hout, hin, not_true_eq_false, not_false_eq_true, if_true, if_false]
      omega
    · have := ih hmem
      by_cases hd : d.name ∈ names
      · simp only [hd, h hd, not_true_eq_false, if_false]
        omega
      · by_cases hd' : d.name ∈ names' <;>
          simp only [hd, hd', not_true_eq_false, not_false_eq_true, if_true, if_false] <;> omega

/-! ## Chains of references -/

/-- A chain of references leads from one name to another. -/
inductive Leads (defs : List TypeDefinition) : String → String → Prop where
  /-- the empty chain -/
  | refl (name : String) : Leads defs name name
  /-- a reference of a defined type, and a chain from there -/
  | step {definition : TypeDefinition} {next last : String} (hmem : definition ∈ defs)
      (href : next ∈ definition.references) (hrest : Leads defs next last) :
      Leads defs definition.name last

/-- Searches for a name among those that chains of references lead to, from any of the `pending`
names and without going on from a `seen` one. -/
def search (defs : List TypeDefinition) (goal : String) :
    (pending seen : List String) → Bool
  | [], _ => false
  | name :: pending, seen =>
    if name = goal then
      true
    else if _hseen : name ∈ seen then
      search defs goal pending seen
    else
      match _h : definition? defs name with
      | none => search defs goal pending (name :: seen)
      | some definition =>
        search defs goal (definition.val.references ++ pending) (name :: seen)
termination_by pending seen => (unvisited defs seen, pending.length)
decreasing_by
  · exact Prod.Lex.right _ (Nat.lt_succ_self _)
  · rcases Nat.lt_or_eq_of_le
        (@unvisited_le_of_subset defs _ _ (List.subset_cons_self name seen)) with hlt | heq
    · exact Prod.Lex.left _ _ hlt
    · rw [heq]
      exact Prod.Lex.right _ (Nat.lt_succ_self _)
  · have hname := name_of_definition? _h
    exact Prod.Lex.left _ _ (unvisited_lt definition.property (by rw [hname]; exact _hseen)
      (by rw [hname]; exact List.mem_cons_self) (List.subset_cons_self _ _))

/-- Whether a chain of references leads from one name to another. -/
def reaches (defs : List TypeDefinition) (start goal : String) : Bool :=
  search defs goal [start] []

end FilterScope
