/-!
# How violations are reported

The one thing that can be configured is the type that an unknown field of a nested object is
reported against. The choice is a matter of wording: it decides neither whether a filter is valid
nor which segment is at fault.
-/

namespace FilterScope

/-- The type that an unknown field of a nested object is reported against. -/
inductive NestedContext where
  /-- the type that the filter is written for -/
  | rootType
  /-- the type of the nested object -/
  | nestedType
  deriving DecidableEq, Repr

/-- The settings of a check. -/
structure Config where
  /-- which type an unknown field of a nested object is reported against -/
  nestedContext : NestedContext
  deriving DecidableEq, Repr

/-- The settings that hold when nothing is said: unknown fields are reported against the root
type. -/
def Config.default : Config := ⟨.rootType⟩

instance : Inhabited Config := ⟨.default⟩

end FilterScope
