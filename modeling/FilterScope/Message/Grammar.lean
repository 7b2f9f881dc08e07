import FilterScope.Json.Grammar
import FilterScope.Message.Template

/-!
# The grammars of templates and of catalogs

Two things are said here without the functions that compute them.

* How a template is **cut** (`Template.IsCut`): the first piece is what comes before the leftmost
  placeholder, and what comes behind that placeholder is cut in the same way. So no placeholder
  overlaps another, and the text behind the last one is a piece as well.
* Which texts are **documents of entries** (`IsEntriesText`): those that spell an object whose
  values are strings. Keys may be repeated, and their order is that of the entries.
-/

namespace FilterScope

/-- A text is cut at its placeholders into pieces. -/
inductive Template.IsCut : List Char → List (List Char) → Prop where
  /-- a text without a placeholder is one piece -/
  | whole {text : List Char} (hnone : ¬ placeholder <:+: text) : IsCut text [text]
  /-- the piece before the leftmost placeholder, and the pieces of the text behind it -/
  | cut {piece rest : List Char} {pieces : List (List Char)}
      (hleftmost : ∀ before after, piece ++ placeholder ++ rest = before ++ placeholder ++ after →
        piece.length ≤ before.length) (hrest : IsCut rest pieces) :
      IsCut (piece ++ placeholder ++ rest) (piece :: pieces)

/-- The object of which entries are the members. -/
def Json.Value.ofEntries (entries : List (String × String)) : Json.Value :=
  .object (entries.map fun (key, template) => (key, .text template))

/-- A text spells entries, in their order. -/
def IsEntriesText (text : List Char) (entries : List (String × String)) : Prop :=
  Json.IsDocument text (.ofEntries entries)

end FilterScope
