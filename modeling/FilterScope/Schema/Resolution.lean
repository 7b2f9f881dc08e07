import FilterScope.Schema.Definition
import FilterScope.Schema.Registry

/-!
# Building a registry from type definitions

`Registry.ofDefinitions` turns a list of type definitions into a registry that holds a schema for
each of them, or says what is wrong with the definitions.

* A **supertype** is always resolved: the schema of the type is part of the schema that extends
  it. So a loop of supertypes has no schema, and is an error.
* A **nested type** is resolved too, unless a chain of references leads from it back to the type
  that nests it. Then it is kept by name, to be looked up when a filter goes through the field. So
  types may nest themselves and each other.

Each type is resolved once. Resolution carries the registry of the types that are finished and the
path of the types that are begun: a type that is reached again while it is begun closes a loop.
Going to a type lengthens the path by a defined name that was not on it, so the recursion is
bounded by the number of definitions that are not on the path.
-/

namespace FilterScope

/-! ## What can be wrong with definitions -/

/-- What is wrong with a list of type definitions. -/
inductive DefinitionFault where
  /-- a name is defined twice -/
  | duplicateType (typeName : String)
  /-- a type extends one that is not defined -/
  | unknownSupertype (typeName supertype : String)
  /-- a field nests a type that is not defined -/
  | unknownNestedType (typeName field nestedType : String)
  /-- a path of references whose last name is on it before -/
  | cyclicReference (path : List String)
  deriving DecidableEq, Repr

/-- The words for a fault. -/
def DefinitionFault.message : DefinitionFault → String
  | .duplicateType typeName => s!"Type '{typeName}' is defined more than once"
  | .unknownSupertype typeName supertype => s!"Type '{typeName}' extends unknown type '{supertype}'"
  | .unknownNestedType typeName field nestedType =>
    s!"Field '{field}' of type '{typeName}' refers to unknown nested type '{nestedType}'"
  | .cyclicReference path => "Cyclic schema reference: " ++ String.intercalate " -> " path

/-- The first name in a list that is already among the `seen` ones or stands earlier in the list. -/
def firstRepeated? (seen : List String) : List String → Option String
  | [] => none
  | name :: names =>
    if name ∈ seen then some name else firstRepeated? (name :: seen) names

/-! ## Resolving one type after the other -/

variable {τ : Type}

mutual

/-- The schema of a defined type, and the registry with it and all that it needed. `path` holds the
types that are begun, the outermost first. -/
def resolve (defs : List TypeDefinition) (definition : { definition // definition ∈ defs })
    (path : List String) (built : Registry τ) : Except DefinitionFault (Schema τ × Registry τ) :=
  match built.find? definition.val.name with
  | some schema => .ok (schema, built)
  | none =>
    if _hpath : definition.val.name ∈ path then
      .error (.cyclicReference (path ++ [definition.val.name]))
    else do
      let path' := path ++ [definition.val.name]
      let (supertype, built) ← resolveSupertype defs definition.val path' built
      let (fields, built) ← resolveFields defs definition.val path' definition.val.fields built
      let schema : Schema τ := ⟨definition.val.name, fields, supertype⟩
      .ok (schema, built.insert schema)
termination_by (unvisited defs path, 0)
decreasing_by
  all_goals
    exact Prod.Lex.left _ _ (unvisited_lt definition.property _hpath (by simp)
      (List.subset_append_left _ _))

/-- The schema of the type that a definition extends, if it extends one. -/
def resolveSupertype (defs : List TypeDefinition) (owner : TypeDefinition) (path : List String)
    (built : Registry τ) : Except DefinitionFault (Option (Schema τ) × Registry τ) :=
  match owner.supertype with
  | none => .ok (none, built)
  | some name =>
    match definition? defs name with
    | none => .error (.unknownSupertype owner.name name)
    | some definition => do
      let (schema, built) ← resolve defs definition path built
      .ok (some schema, built)
termination_by (unvisited defs path, 1)

/-- The fields of a definition, in order. -/
def resolveFields (defs : List TypeDefinition) (owner : TypeDefinition) (path : List String) :
    List FieldDefinition → Registry τ → Except DefinitionFault (List (Field τ) × Registry τ)
  | [], built => .ok ([], built)
  | field :: more, built => do
    let (first, built) ← resolveField defs owner path field built
    let (rest, built) ← resolveFields defs owner path more built
    .ok (first :: rest, built)
termination_by fields => (unvisited defs path, fields.length + 2)

/-- One field of a definition. The type that it nests is kept by name if it leads back to the
definition, and resolved if it does not. -/
def resolveField (defs : List TypeDefinition) (owner : TypeDefinition) (path : List String)
    (field : FieldDefinition) (built : Registry τ) :
    Except DefinitionFault (Field τ × Registry τ) :=
  match field.nested with
  | none => .ok (.plain field.name, built)
  | some name =>
    match definition? defs name with
    | none => .error (.unknownNestedType owner.name field.name name)
    | some definition =>
      if reaches defs name owner.name then
        .ok (.named field.name name, built)
      else do
        let (schema, built) ← resolve defs definition path built
        .ok (.resolved field.name schema, built)
termination_by (unvisited defs path, 1)

end

/-! ## Registries of definitions -/

/-- Resolves definitions one after the other, each with what the ones before it left behind. -/
def resolveAll (defs : List TypeDefinition) :
    List { definition // definition ∈ defs } → Registry τ → Except DefinitionFault (Registry τ)
  | [], built => .ok built
  | definition :: more, built => do
    let (_, built) ← resolve defs definition [] built
    resolveAll defs more built

/-- The registry of a list of type definitions. A name that is defined twice is reported before
anything else that may be wrong. -/
def Registry.ofDefinitions (defs : List TypeDefinition) : Except DefinitionFault (Registry τ) :=
  match firstRepeated? [] (defs.map (·.name)) with
  | some name => .error (.duplicateType name)
  | none => resolveAll defs defs.attach ∅

end FilterScope
