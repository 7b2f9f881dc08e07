import FilterScope.Schema.Resolution

/-!
# Resolution as a walk over the definitions

`resolve` is a recursive function, which is given the path of the types that are begun and hands on
a larger registry. Here the same work is done by single steps on one state (`Walk`), in which
everything is in plain sight that the recursion keeps to itself:

* the **visiting stack**, onto which a type is pushed when it is begun and from which it is popped
  when it is finished, and the **built registry**, in which a finished type is put;
* the **waiting drafts**, one for each type that is begun and has asked for another. They are the
  calls that have not returned.

Types are asked for by name, and the definition of a name is looked up only after that. If the
lookup found nothing, there would be no next step (`Walk.next`), although nothing has come out yet
(`Walk.outcome?`).
-/

namespace FilterScope

variable {τ : Type}

/-! ## Drafts -/

/-- Something that the schema of a definition is made from. -/
inductive Part where
  /-- the type that it extends -/
  | supertype (name : String)
  /-- a field that it declares -/
  | field (field : FieldDefinition)

/-- What the schema of a definition is made from, in this order. -/
def TypeDefinition.parts (definition : TypeDefinition) : List Part :=
  definition.supertype.toList.map .supertype ++ definition.fields.map .field

/-- A type that is begun. -/
structure Draft (τ : Type) where
  /-- its schema, as far as it has been made -/
  schema : Schema τ
  /-- what is still missing -/
  parts : List Part

/-- What the schema of another type is asked for. -/
inductive Purpose where
  /-- to be extended -/
  | supertype
  /-- to be nested by a field -/
  | field (name : String)

/-- A type that is begun and has asked for another. -/
structure Waiting (τ : Type) where
  /-- the type as far as it has been made -/
  draft : Draft τ
  /-- what it has asked for -/
  purpose : Purpose

/-- The step of making a schema for which the schema of another type was asked. -/
def Purpose.step (schema : Schema τ) : Purpose → Step τ
  | .supertype => .supertype schema
  | .field name => .field (.resolved name schema)

/-- A draft with one more step of its schema made. -/
def Draft.made (schema : Schema τ) (step : Step τ) (parts : List Part) : Draft τ :=
  ⟨schema.step step, parts⟩

/-- A draft that has got what it waited for. -/
def Waiting.resume (waiting : Waiting τ) (schema : Schema τ) : Draft τ :=
  .made waiting.draft.schema (waiting.purpose.step schema) waiting.draft.parts

/-! ## States -/

/-- What is being done. -/
inductive Phase (τ : Type) where
  /-- no type is asked for -/
  | idle
  /-- a type is asked for by its name -/
  | asked (name : String)
  /-- a type is made -/
  | working (draft : Draft τ)
  /-- the type that was asked for has this schema -/
  | answered (schema : Schema τ)
  /-- the definitions have a fault -/
  | failed (fault : DefinitionFault)

/-- A state of resolution. -/
structure Walk (τ : Type) where
  /-- the names of the definitions that have not had their turn -/
  pending : List String
  /-- the schemas of the types that are finished -/
  built : Registry τ
  /-- the types that are begun, the outermost first -/
  visiting : List String
  /-- the types that wait for others, the innermost first -/
  waiting : List (Waiting τ)
  /-- what is being done -/
  phase : Phase τ

namespace Walk

/-- The state before the first step. -/
def start (defs : List TypeDefinition) : Walk τ :=
  ⟨defs.map (·.name), ∅, [], [], .idle⟩

/-- What has come out, if there is nothing more to do. -/
def outcome? (walk : Walk τ) : Option (Except DefinitionFault (Registry τ)) :=
  match walk.phase, walk.pending with
  | .idle, [] => some (.ok walk.built)
  | .failed fault, _ => some (.error fault)
  | _, _ => none

/-- How many calls have not returned: one for each type that waits, and the one at work. -/
def depth (walk : Walk τ) : Nat := walk.waiting.length + 1

/-! ## Steps -/

/-- Gives up. -/
def fail (walk : Walk τ) (fault : DefinitionFault) : Walk τ :=
  { walk with phase := .failed fault }

/-- Goes on with a draft. -/
def work (walk : Walk τ) (draft : Draft τ) : Walk τ :=
  { walk with phase := .working draft }

/-- Leaves a draft waiting and asks for another type. -/
def ask (walk : Walk τ) (waiting : Waiting τ) (name : String) : Walk τ :=
  { walk with waiting := waiting :: walk.waiting, phase := .asked name }

/-- A type is asked for. It may be finished; if it is begun it closes a loop; otherwise it is begun
now, and its definition must be found. -/
def begin? (defs : List TypeDefinition) (walk : Walk τ) (name : String) : Option (Walk τ) :=
  match walk.built.find? name with
  | some schema => some { walk with phase := .answered schema }
  | none =>
    if name ∈ walk.visiting then
      some (walk.fail (.cyclicReference (walk.visiting ++ [name])))
    else
      (definition? defs name).map fun definition =>
        { walk with
          visiting := walk.visiting ++ [name]
          phase := .working ⟨.empty name, definition.val.parts⟩ }

/-- A draft gets its next part, asks for the type that it needs for it, or is finished. -/
def make (defs : List TypeDefinition) (walk : Walk τ) (draft : Draft τ) : Walk τ :=
  let owner := draft.schema.typeName
  match draft.parts with
  | [] =>
    { walk with
      built := walk.built.insert draft.schema
      visiting := walk.visiting.dropLast
      phase := .answered draft.schema }
  | .supertype name :: parts =>
    match definition? defs name with
    | none => walk.fail (.unknownSupertype owner name)
    | some _ => walk.ask ⟨⟨draft.schema, parts⟩, .supertype⟩ name
  | .field ⟨field, none⟩ :: parts => walk.work (.made draft.schema (.field (.plain field)) parts)
  | .field ⟨field, some name⟩ :: parts =>
    match definition? defs name with
    | none => walk.fail (.unknownNestedType owner field name)
    | some _ =>
      if reaches defs name owner then
        walk.work (.made draft.schema (.field (.named field name)) parts)
      else
        walk.ask ⟨⟨draft.schema, parts⟩, .field field⟩ name

/-- A schema is handed to the draft that waits for it, if one does. -/
def answer (walk : Walk τ) (schema : Schema τ) : Walk τ :=
  match walk.waiting with
  | [] => { walk with phase := .idle }
  | innermost :: waiting =>
    { walk with waiting := waiting, phase := .working (innermost.resume schema) }

/-- The state after the next step. -/
def next (defs : List TypeDefinition) (walk : Walk τ) : Option (Walk τ) :=
  match walk.phase with
  | .idle =>
    match walk.pending with
    | [] => none
    | name :: pending => some { walk with pending := pending, phase := .asked name }
  | .asked name => walk.begin? defs name
  | .working draft => some (walk.make defs draft)
  | .answered schema => some (walk.answer schema)
  | .failed _ => none

end Walk

end FilterScope
