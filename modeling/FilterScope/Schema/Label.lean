import FilterScope.Schema.Basic
import FilterScope.Text.Quoted

/-!
# Labels of nested types

A label tells how the schema of a nested object is found, without going into that schema. A type
known in advance is not even named, because it may lead back to the type that nests it.
-/

namespace FilterScope

/-- The label of a nested type. -/
def Nested.label {τ : Type} : Nested τ → String
  | .resolved schema => "Resolved(" ++ Text.quote schema.typeName ++ ")"
  | .deferred _ => "Target"
  | .named typeName => "Named(" ++ Text.quote typeName ++ ")"

end FilterScope
