/-!
# Message templates

A template is a text with placeholders, each written `%s`. It is cut at its placeholders, the
leftmost first and none overlapping another, into one piece more than it has placeholders. Filling
it puts an argument between each piece and the next.

Arguments are put in as they are and are never searched for placeholders. Arguments that no
placeholder takes are dropped, and a placeholder without an argument stays as it is written.
-/

namespace FilterScope.Template

/-- How a placeholder is written. -/
def placeholder : List Char := ['%', 's']

/-- The pieces of a template between its placeholders; there is always one. -/
def pieces : List Char → List (List Char)
  | [] => [[]]
  | '%' :: 's' :: cs => [] :: pieces cs
  | c :: cs => (pieces cs).modifyHead (c :: ·)

/-- Puts an argument, or a placeholder if no argument is left, in front of each piece. -/
def weave : (pieces arguments : List (List Char)) → List Char
  | [], _ => []
  | piece :: pieces, [] => placeholder ++ piece ++ weave pieces []
  | piece :: pieces, argument :: arguments => argument ++ piece ++ weave pieces arguments

/-- A template with its placeholders filled in order. -/
def fill (template : String) (arguments : List String) : String :=
  match pieces template.toList with
  | [] => ""
  | first :: more => String.ofList (first ++ weave more (arguments.map String.toList))

/-- There is always a piece, if only an empty one. -/
theorem pieces_ne_nil (cs : List Char) : pieces cs ≠ [] := by
  fun_induction pieces cs with
  | case1 => simp
  | case2 cs ih => simp
  | case3 c cs _ ih => simpa using ih

end FilterScope.Template
