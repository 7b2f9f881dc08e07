/-!
# Violations: what is wrong with a filter

Checking a filter has an `Outcome`: the filter is valid, or its first `Violation` is reported. Three
kinds of violation can be told apart. Each kind has a key, under which a catalog of messages
may hold its words, and each violation has a text of its own that needs no catalog.
-/

namespace FilterScope

/-! ## Violations -/

/-- The first problem of a filter. -/
inductive Violation where
  /-- the text is no filter -/
  | invalidSyntax (message : String)
  /-- a segment names no visible field of a type -/
  | unknownField (selector typeName : String)
  /-- a selector ends at a nested object, without a field of it -/
  | missingNestedSelector (selector typeName : String)
  deriving DecidableEq, Repr

/-- The kinds of violation. -/
inductive ViolationKind where
  | syntaxError
  | unknownField
  | missingNestedSelector
  deriving DecidableEq, Repr

/-- The key under which the message for a kind of violation is kept. -/
def ViolationKind.key : ViolationKind → String
  | .syntaxError => "ethias.oi.rxjs.ValidFilter.invalidSyntax"
  | .unknownField => "ethias.oi.rxjs.ValidFilter.unknownField"
  | .missingNestedSelector => "ethias.oi.rxjs.ValidFilter.invalidNestedObject"

namespace Violation

/-- The kind of a violation. -/
def kind : Violation → ViolationKind
  | .invalidSyntax _ => .syntaxError
  | .unknownField _ _ => .unknownField
  | .missingNestedSelector _ _ => .missingNestedSelector

/-- The key under which the message for a violation is kept. -/
def key (violation : Violation) : String :=
  violation.kind.key

/-- The segment at fault; a syntax error has none. -/
def selector? : Violation → Option String
  | .invalidSyntax _ => none
  | .unknownField selector _ => some selector
  | .missingNestedSelector selector _ => some selector

/-- The type that the violation is reported against; a syntax error has none. -/
def typeName? : Violation → Option String
  | .invalidSyntax _ => none
  | .unknownField _ typeName => some typeName
  | .missingNestedSelector _ typeName => some typeName

/-- The text of a violation. -/
def text : Violation → String
  | .invalidSyntax message => s!"The filter syntax is invalid: {message}"
  | .unknownField selector typeName => s!"The field <{selector}> can't be found in {typeName}"
  | .missingNestedSelector selector typeName =>
    s!"Please add the name of the field you are searching for in nested object <{selector}> " ++
      s!"in class {typeName}"

end Violation

/-! ## Outcomes -/

/-- The result of checking a filter. -/
inductive Outcome where
  /-- every selector names a field -/
  | valid
  /-- the first problem -/
  | invalid (violation : Violation)
  deriving DecidableEq, Repr

/-- The first outcome if it is a violation, and else the second. -/
def Outcome.andThen : Outcome → Outcome → Outcome
  | .valid, next => next
  | .invalid violation, _ => .invalid violation

end FilterScope
