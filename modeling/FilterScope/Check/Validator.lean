import FilterScope.Check.Scope
import FilterScope.Filter.Parser
import FilterScope.Schema.Registry

/-!
# Checking the text of a filter

Three things can happen to the text of a filter. A **blank** text is valid, whatever it is checked
against. A text that is **no filter** is reported as a syntax violation, with the parser's message.
Any other text is checked as the expression it stands for.

A `Validator` checks filters for types that are registered by name. That a type is not registered
is a problem of the caller and not of the filter, so it is an `UnknownType` and no outcome; a blank
filter is valid even then.
-/

namespace FilterScope

open FilterScope.Filter

variable {τ : Type} [Described τ]

/-- Checks the text of a filter in a scope. -/
def Scope.checkText (scope : Scope τ) (filter : String) : Outcome :=
  if Text.isBlankText filter then
    .valid
  else
    match parse filter with
    | .error fault => .invalid (.invalidSyntax fault.message)
    | .ok expr => scope.check expr

/-- Checks the text of a filter against a schema on its own: nothing is looked up by name. -/
def checkFilter (filter : String) (schema : Schema τ) (config : Config) : Outcome :=
  Scope.checkText ⟨schema, .none, config⟩ filter

/-- Checks the text of a filter for a type known in advance, on its own and with the default
settings. -/
def checkFilterFor (filter : String) (target : τ) : Outcome :=
  checkFilter filter (Described.schema target) .default

/-! ## Checking for registered types -/

/-- A type name under which no schema is registered. -/
structure UnknownType where
  /-- the name -/
  typeName : String
  deriving DecidableEq, Repr

/-- The words for an unknown type. -/
def UnknownType.message (unknown : UnknownType) : String :=
  s!"No schema registered for type '{unknown.typeName}'"

/-- Checks filters for the types of a registry. -/
structure Validator (τ : Type) where
  /-- the types that filters can be checked for, and that nested objects are looked up in -/
  registry : Registry τ
  /-- how violations are reported -/
  config : Config

namespace Validator

/-- Checks the text of a filter for a registered type. -/
def check (validator : Validator τ) (filter typeName : String) : Except UnknownType Outcome :=
  if Text.isBlankText filter then
    .ok .valid
  else
    match validator.registry.find? typeName with
    | none => .error ⟨typeName⟩
    | some schema =>
      .ok (Scope.checkText ⟨schema, validator.registry.find?, validator.config⟩ filter)

/-- Checks the text of a filter for a type known in advance, whether it is registered or not. Types
kept by name still come from the registry. -/
def checkTarget (validator : Validator τ) (filter : String) (target : τ) : Outcome :=
  Scope.checkText ⟨Described.schema target, validator.registry.find?, validator.config⟩ filter

end Validator

end FilterScope
