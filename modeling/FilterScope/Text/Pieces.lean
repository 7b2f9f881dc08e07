/-!
# Cutting a text at a separator

`cutAt sep cs` is the list of pieces between the occurrences of one character. There is always
one piece more than there are separators, so the list is never empty (`cutAt_ne_nil`), no piece
holds the separator (`not_mem_of_mem_cutAt`), and writing the separator between the pieces gives
the text back (`intercalate_cutAt`).
-/

namespace FilterScope.Text

/-- The pieces of a text between the occurrences of `sep`; empty pieces are kept. -/
def cutAt (sep : Char) : List Char → List (List Char)
  | [] => [[]]
  | c :: cs => if c = sep then [] :: cutAt sep cs else (cutAt sep cs).modifyHead (c :: ·)

/-- There is always a piece, if only an empty one. -/
theorem cutAt_ne_nil (sep : Char) (cs : List Char) : cutAt sep cs ≠ [] := by
  induction cs with
  | nil => simp [cutAt]
  | cons c cs ih => by_cases h : c = sep <;> simp [cutAt, h, ih]

/-- The separator stands in no piece. -/
theorem not_mem_of_mem_cutAt {sep : Char} {cs piece : List Char} (h : piece ∈ cutAt sep cs) :
    sep ∉ piece := by
  induction cs generalizing piece with
  | nil => simp_all [cutAt]
  | cons c cs ih =>
    obtain ⟨first, more, hcut⟩ := List.exists_cons_of_ne_nil (cutAt_ne_nil sep cs)
    rw [hcut] at ih
    by_cases hc : c = sep
    · simp only [cutAt, hc, if_true, hcut, List.mem_cons] at h
      rcases h with rfl | h
      · simp
      · exact ih (List.mem_cons.2 h)
    · simp only [cutAt, hc, if_false, hcut, List.modifyHead_cons, List.mem_cons] at h
      rcases h with rfl | h
      · simp [Ne.symm hc, ih (List.mem_cons_self ..)]
      · exact ih (List.mem_cons_of_mem _ h)

/-- Joining undoes cutting. -/
theorem intercalate_cutAt (sep : Char) (cs : List Char) :
    [sep].intercalate (cutAt sep cs) = cs := by
  induction cs with
  | nil => simp [cutAt]
  | cons c cs ih =>
    obtain ⟨first, more, hcut⟩ := List.exists_cons_of_ne_nil (cutAt_ne_nil sep cs)
    by_cases hc : c = sep <;> cases more <;>
      simp_all [cutAt, List.intercalate, List.intersperse]

end FilterScope.Text
