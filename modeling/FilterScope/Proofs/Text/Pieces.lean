import FilterScope.Text.Pieces

/-!
# The pieces of a text are the only ones

Pieces that do not hold a separator are got back by cutting the text in which the separator stands
between them (`cutAt_intercalate`). So a text determines its pieces, and what is true of all pieces
of a text can be said of the text and the other way round.
-/

namespace FilterScope.Text

variable {sep : Char}

/-- Joined pieces are the first one, and each other with the separator before it. -/
theorem intercalate_cons (first : List Char) (more : List (List Char)) :
    [sep].intercalate (first :: more) = first ++ more.flatMap (sep :: ·) := by
  induction more generalizing first with
  | nil => simp
  | cons second more ih =>
    rw [List.intercalate_cons_cons, ih, List.flatMap_cons]
    simp

/-- A text without the separator is one piece. -/
theorem cutAt_of_not_mem {cs : List Char} (h : sep ∉ cs) : cutAt sep cs = [cs] := by
  induction cs with
  | nil => rfl
  | cons c cs ih =>
    rw [List.mem_cons, not_or] at h
    rw [cutAt, if_neg (Ne.symm h.1), ih h.2, List.modifyHead_cons]

/-- What stands before the first separator is the first piece. -/
theorem cutAt_append_cons {piece : List Char} (h : sep ∉ piece) (cs : List Char) :
    cutAt sep (piece ++ sep :: cs) = piece :: cutAt sep cs := by
  induction piece with
  | nil => rw [List.nil_append, cutAt, if_pos rfl]
  | cons c piece ih =>
    rw [List.mem_cons, not_or] at h
    rw [List.cons_append, cutAt, if_neg (Ne.symm h.1), ih h.2, List.modifyHead_cons]

/-- Cutting undoes joining for pieces in which the separator does not stand. -/
theorem cutAt_intercalate {pieces : List (List Char)} (hne : pieces ≠ [])
    (h : ∀ piece ∈ pieces, sep ∉ piece) : cutAt sep ([sep].intercalate pieces) = pieces := by
  obtain ⟨first, more, rfl⟩ := List.exists_cons_of_ne_nil hne
  clear hne
  induction more generalizing first with
  | nil => rw [List.intercalate_singleton, cutAt_of_not_mem (h first List.mem_cons_self)]
  | cons second more ih =>
    obtain ⟨hfirst, hmore⟩ := List.forall_mem_cons.mp h
    rw [List.intercalate_cons_cons, List.append_assoc, List.singleton_append,
      cutAt_append_cons hfirst, ih second hmore]

/-- Empty pieces at the end of a text are separators at its end. -/
theorem intercalate_append_replicate (first : List Char) (more : List (List Char)) (n : Nat) :
    [sep].intercalate (first :: more ++ List.replicate n []) =
      [sep].intercalate (first :: more) ++ List.replicate n sep := by
  have hempty : (List.replicate n []).flatMap (sep :: ·) = List.replicate n sep := by
    induction n with
    | zero => rfl
    | succ n ih =>
      rw [List.replicate_succ, List.flatMap_cons, ih]
      rfl
  rw [List.cons_append, intercalate_cons, intercalate_cons, List.flatMap_append, hempty,
    List.append_assoc]

end FilterScope.Text
