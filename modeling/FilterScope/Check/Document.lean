import FilterScope.Check.Config
import FilterScope.Json.Record

/-!
# Settings as a JSON document

A document is a record with the key `nested_context`, which may be left out. Other keys mean nothing
and are passed over.
-/

namespace FilterScope

open Json

/-- The word for a choice of type to report against. -/
def NestedContext.word : NestedContext → String
  | .rootType => "root_type"
  | .nestedType => "nested_type"

/-- The choices by their words. -/
def NestedContext.choices : List (String × NestedContext) :=
  [.rootType, .nestedType].map fun context => (NestedContext.word context, context)

/-- How settings are written. -/
def Config.record : Record (Option NestedContext) Config where
  parts :=
    [⟨"nested_context", Option.isSome, fun _ => some <$> Reader.choice NestedContext.choices⟩]
  surplus := .skipped
  initial := none
  finish context := some ⟨context.getD Config.default.nestedContext⟩

/-- The settings that a document describes. -/
def Config.ofDocument (text : String) : Except Fault Config :=
  Config.record.read.document text

end FilterScope
