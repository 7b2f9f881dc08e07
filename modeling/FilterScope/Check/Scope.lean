import FilterScope.Check.Config
import FilterScope.Check.Violation
import FilterScope.Filter.Basic
import FilterScope.Schema.Basic

/-!
# Checking selectors against a schema

A `Scope` is what selectors are read in: the schema of the type that is filtered, the provider of
types that are kept by name, and how violations are reported.

**One selector.** Its first segment must name a visible field of the root type. If that field is
plain, the selector is accepted, whatever follows. If it holds a nested object, the second segment
must name a visible field of the nested type, and that field must be plain. Segments beyond the
second are never looked at. Empty segments at the end count as not written.

**A whole filter.** Every comparison is checked against the same root, from left to right, and the
first violation is the outcome. Connectives, operators and arguments play no part.
-/

namespace FilterScope

open FilterScope.Filter

variable {τ : Type}

/-- What selectors are read in. -/
structure Scope (τ : Type) where
  /-- the type that is filtered -/
  root : Schema τ
  /-- finds the types that nested objects are looked up by -/
  provider : Provider τ
  /-- how violations are reported -/
  config : Config

/-- The segments of a selector without the empty ones at its end; the first is always kept. -/
def Filter.Selector.path (selector : Selector) : List String :=
  match selector.segments with
  | [] => []
  | first :: more => first :: (more.reverse.dropWhile (· == "")).reverse

namespace Scope

/-- The type that an unknown field is reported against, when it was looked up on the given type. -/
def context (scope : Scope τ) (typeName : String) : String :=
  match scope.config.nestedContext with
  | .rootType => scope.root.typeName
  | .nestedType => typeName

/-- Checks a segment that must name a plain field of a nested type. -/
def checkNested (scope : Scope τ) (schema : Schema τ) (name : String) : Outcome :=
  match schema.field? name with
  | none => .invalid (.unknownField name (scope.context schema.typeName))
  | some found =>
    match found.field.nested with
    | none => .valid
    | some _ => .invalid (.missingNestedSelector name found.declaredOn)

/-- Checks the segments of a selector. The nested type is looked up only if there is a segment to
look for in it; when it is not to be found, the segment is unknown under the name it was looked up
by. -/
def checkPath [Described τ] (scope : Scope τ) : List String → Outcome
  | [] => .valid
  | name :: more =>
    match scope.root.field? name with
    | none => .invalid (.unknownField name (scope.context scope.root.typeName))
    | some found =>
      match found.field.nested, more with
      | none, _ => .valid
      | some _, [] => .invalid (.missingNestedSelector name found.declaredOn)
      | some nested, next :: _ =>
        match nested.find scope.provider with
        | .ok schema => scope.checkNested schema next
        | .error typeName => .invalid (.unknownField next (scope.context typeName))

/-- Checks a selector. -/
def checkSelector [Described τ] (scope : Scope τ) (selector : Selector) : Outcome :=
  scope.checkPath selector.path

mutual

/-- Checks all comparisons of an expression; the first violation from the left is the outcome. -/
def check [Described τ] (scope : Scope τ) : Expr → Outcome
  | .comparison comparison => scope.checkSelector comparison.selector
  | .logical _ operands => scope.checkAll operands

/-- Checks expressions from left to right. -/
def checkAll [Described τ] (scope : Scope τ) : List Expr → Outcome
  | [] => .valid
  | first :: more => (scope.check first).andThen (scope.checkAll more)

end

end Scope

end FilterScope
