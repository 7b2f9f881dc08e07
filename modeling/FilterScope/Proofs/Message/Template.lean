import Mathlib.Data.List.Infix
import FilterScope.Message.Catalog
import FilterScope.Message.Grammar

/-!
# What a violation is rendered as

A text is cut in one way only (`Template.isCut_iff`), so the pieces of a template can be spoken of.
Between each piece and the next stands one placeholder, and what replaces it is known from its
number alone (`Template.fill_of_isCut`): the argument of that number, or the placeholder itself if
there are fewer arguments. No piece and no argument is ever searched, because the cut is made once
and before anything is filled in.

A violation that is no syntax error has two arguments and a syntax error has none, so its template
comes out as it is.
-/

namespace FilterScope

namespace Template

variable {text : List Char} {pieces' : List (List Char)}

/-! ## How a text is cut -/

/-- A placeholder in front ends an empty piece. -/
theorem pieces_placeholder (rest : List Char) :
    pieces (placeholder ++ rest) = [] :: pieces rest := by
  rw [placeholder, List.cons_append, List.singleton_append, pieces]

/-- Any other character in front belongs to the first piece. -/
theorem pieces_cons {c : Char} {cs : List Char} (h : ¬ placeholder <+: c :: cs) :
    pieces (c :: cs) = (pieces cs).modifyHead (c :: ·) := by
  refine pieces.eq_3 c cs fun rest hc hcs => h ?_
  subst hc hcs
  exact List.prefix_append placeholder rest

/-- A text without a placeholder is one piece. -/
theorem pieces_eq_singleton (h : ¬ placeholder <:+: text) : pieces text = [text] := by
  induction text with
  | nil => rfl
  | cons c cs ih =>
    rw [List.infix_cons_iff, not_or] at h
    rw [pieces_cons h.1, ih h.2, List.modifyHead_cons]

/-- A placeholder that begins with the text is the leftmost one. -/
theorem isCut_placeholder {rest : List Char} (h : IsCut rest pieces') :
    IsCut (placeholder ++ rest) ([] :: pieces') := by
  have hcut : IsCut ([] ++ placeholder ++ rest) ([] :: pieces') :=
    .cut (fun _ _ _ => Nat.zero_le _) h
  exact hcut

/-- A character before the leftmost placeholder belongs to the first piece. -/
theorem IsCut.cons {c : Char} {cs : List Char} (h : IsCut cs pieces')
    (hfirst : ¬ placeholder <+: c :: cs) : IsCut (c :: cs) (pieces'.modifyHead (c :: ·)) := by
  cases h with
  | whole hnone => exact .whole (by rw [List.infix_cons_iff, not_or]; exact ⟨hfirst, hnone⟩)
  | @cut piece rest pieces' hleftmost hrest =>
    have hcut : IsCut (c :: piece ++ placeholder ++ rest) ((c :: piece) :: pieces') := by
      refine .cut (fun before after heq => ?_) hrest
      cases before with
      | nil => exact absurd ⟨after, heq.symm⟩ hfirst
      | cons d before =>
        have htail := (List.cons.inj heq).2
        exact Nat.succ_le_succ (hleftmost before after htail)
    exact hcut

/-- The pieces are a cut of the text. -/
theorem isCut_pieces (text : List Char) : IsCut text (pieces text) := by
  fun_induction pieces text with
  | case1 => exact .whole (by simp [placeholder])
  | case2 rest ih => exact isCut_placeholder ih
  | case3 c cs hfirst ih =>
    refine ih.cons ?_
    rintro ⟨rest, heq⟩
    obtain ⟨hc, hcs⟩ := List.cons.inj heq
    exact hfirst rest hc.symm hcs.symm

/-- There is no other cut. -/
theorem IsCut.eq_pieces (h : IsCut text pieces') : pieces' = pieces text := by
  induction h with
  | whole hnone => exact (pieces_eq_singleton hnone).symm
  | @cut piece rest pieces' hleftmost _ ih =>
    subst ih
    clear * - hleftmost
    induction piece with
    | nil => exact (pieces_placeholder rest).symm
    | cons c piece ih =>
      have hfirst : ¬ placeholder <+: c :: (piece ++ placeholder ++ rest) := by
        rintro ⟨after, heq⟩
        exact absurd (hleftmost [] after heq.symm) (Nat.not_succ_le_zero _)
      have hrest : ∀ before after, piece ++ placeholder ++ rest = before ++ placeholder ++ after →
          piece.length ≤ before.length := fun before after heq =>
        Nat.le_of_succ_le_succ (hleftmost (c :: before) after (congrArg (c :: ·) heq))
      rw [List.cons_append, List.cons_append, pieces_cons hfirst, ← ih hrest,
        List.modifyHead_cons]

/-- There is one way to cut a text. -/
theorem isCut_iff : IsCut text pieces' ↔ pieces' = pieces text :=
  ⟨IsCut.eq_pieces, fun h => h ▸ isCut_pieces text⟩

/-! ## What the placeholders are replaced by -/

/-- What replaces the placeholder of a number, counted from zero. -/
def replacement (arguments : List String) (i : Nat) : List Char :=
  (arguments[i]?.map String.toList).getD placeholder

/-- From the placeholder of a number on, the arguments from that number on are put in. -/
theorem weave_drop (more : List (List Char)) (arguments : List String) (n : Nat) :
    weave more ((arguments.drop n).map String.toList) =
      (more.zipIdx n).flatMap fun p => replacement arguments p.2 ++ p.1 := by
  induction more generalizing n with
  | nil => rfl
  | cons piece more ih =>
    rw [List.zipIdx_cons, List.flatMap_cons, ← ih (n + 1)]
    rcases Nat.lt_or_ge n arguments.length with hn | hn
    · rw [List.drop_eq_getElem_cons hn, List.map_cons, weave]
      simp [replacement, hn]
    · rw [List.drop_eq_nil_of_le hn, List.drop_eq_nil_of_le (Nat.le_succ_of_le hn)]
      simp [weave, replacement, hn]

/-- What a filled template is, by the numbers of its placeholders. -/
theorem fill_of_isCut {template : String} {first : List Char} {more : List (List Char)}
    (h : IsCut template.toList (first :: more)) (arguments : List String) :
    fill template arguments =
      String.ofList (first ++ more.zipIdx.flatMap fun p => replacement arguments p.2 ++ p.1) := by
  rw [fill, ← h.eq_pieces, ← weave_drop, List.drop_zero]

/-- A text is its pieces with placeholders between them. -/
theorem IsCut.eq_append {first : List Char} {more : List (List Char)}
    (h : IsCut text (first :: more)) : text = first ++ more.flatMap (placeholder ++ ·) := by
  generalize hpieces : first :: more = pieces' at h
  induction h generalizing first more with
  | whole _ =>
    cases hpieces
    simp
  | @cut piece rest pieces' _ hrest ih =>
    cases hpieces
    have hne : pieces' ≠ [] := by cases hrest <;> exact List.cons_ne_nil _ _
    obtain ⟨second, others, rfl⟩ := List.exists_cons_of_ne_nil hne
    rw [List.flatMap_cons, List.append_assoc, List.append_assoc, ← ih rfl]

end Template

/-! ## Violations -/

namespace Catalog

variable {catalog : Catalog} {violation : Violation} {template : String}

/-- A violation is worded by the template of its kind. -/
theorem render_of_template? (h : catalog.template? violation.key = some template) :
    catalog.render violation = Template.fill template (arguments violation) := by
  simp only [render, h]

/-- **What a violation is rendered as.** The template under the key of a violation is cut at its
placeholders in one way, into a first piece and one more for each placeholder. The violation is
rendered as the first piece, and then for each placeholder what replaces it and the piece behind it.
The placeholders are replaced in order by the arguments of the violation as they are; those for
which there is no argument stay. The arguments are the segment at fault and the type it is reported
against, and there are none for a syntax error, which is rendered as its template. -/
theorem render_pieces (h : catalog.template? violation.key = some template) :
    (∃ first more, Template.IsCut template.toList (first :: more) ∧
      (∀ pieces, Template.IsCut template.toList pieces → pieces = first :: more) ∧
      catalog.render violation = String.ofList (first ++
        more.zipIdx.flatMap fun p => Template.replacement (arguments violation) p.2 ++ p.1)) ∧
    (∀ selector typeName,
      violation = .unknownField selector typeName ∨
        violation = .missingNestedSelector selector typeName →
      arguments violation = [selector, typeName]) ∧
    (∀ message, violation = .invalidSyntax message →
      arguments violation = [] ∧ catalog.render violation = template) := by
  obtain ⟨first, more, hpieces⟩ :=
    List.exists_cons_of_ne_nil (Template.pieces_ne_nil template.toList)
  have hcut : Template.IsCut template.toList (first :: more) := Template.isCut_iff.mpr hpieces.symm
  have hrender := (render_of_template? h).trans (Template.fill_of_isCut hcut _)
  refine ⟨⟨first, more, hcut, fun pieces hother => ?_, hrender⟩, ?_, ?_⟩
  · rw [hother.eq_pieces, hpieces]
  · rintro selector typeName (rfl | rfl) <;> rfl
  · rintro message rfl
    have hnone (i : Nat) : Template.replacement (arguments (.invalidSyntax message)) i =
        Template.placeholder := rfl
    have hmore : (more.zipIdx.flatMap fun p => Template.placeholder ++ p.1) =
        more.flatMap (Template.placeholder ++ ·) := by
      conv => rhs; rw [← List.zipIdx_map_fst 0 more, List.flatMap_map]
    refine ⟨rfl, ?_⟩
    simp only [hrender, hnone, hmore]
    rw [← hcut.eq_append, String.ofList_toList]

/-- A percent sign before a placeholder, two placeholders in a row, and an argument that is a
placeholder. -/
theorem render_pieces_percent :
    let catalog := english.insert ViolationKind.unknownField.key "%%s|%s%s"
    catalog.template? (Violation.unknownField "%s" "T").key = some "%%s|%s%s" ∧
      catalog.render (.unknownField "%s" "T") = "%%s|T%s" := by
  have htemplate : (english.insert ViolationKind.unknownField.key "%%s|%s%s").template?
      (Violation.unknownField "%s" "T").key = some "%%s|%s%s" := by
    rw [template?_insert]
    rfl
  refine ⟨htemplate, ?_⟩
  obtain ⟨⟨first, more, hcut, -, hrender⟩, harguments, -⟩ := render_pieces htemplate
  obtain ⟨rfl, rfl⟩ : first = ['%'] ∧ more = [['|'], [], []] :=
    List.cons.inj (hcut.eq_pieces.trans (by decide))
  rw [hrender, harguments _ _ (.inl rfl)]
  decide

end Catalog

end FilterScope
