import FilterScope.Proofs.Check.Leaves
import FilterScope.Proofs.Filter.Surroundings

/-!
# Checking a filter with blank characters around it

A blank filter is valid, and what is blank is decided by all characters with the property
`White_Space`. But only layout may be written around a filter that is not blank. So the same blank
characters are passed over in the one case and are a fault in the other
(`not_agree_noBreakSpace`). What does hold is `Scope.checkText_surrounded`: layout around a filter
changes no more than the place that a syntax violation reports, blank characters around a blank
filter change nothing, and any others make a filter invalid.
-/

namespace FilterScope

open FilterScope.Filter

/-- Two outcomes are the same, or they are syntax violations that differ in the place only. -/
inductive Outcome.AgreeButPlace : Outcome → Outcome → Prop where
  /-- the same -/
  | same (outcome : Outcome) : AgreeButPlace outcome outcome
  /-- syntax violations for the same cause -/
  | place (cause : Cause) (offset offset' : Nat) :
      AgreeButPlace (.invalid (.invalidSyntax (SyntaxFault.message ⟨offset, cause⟩)))
        (.invalid (.invalidSyntax (SyntaxFault.message ⟨offset', cause⟩)))

/-- An outcome that agrees with a valid one is valid. -/
theorem Outcome.AgreeButPlace.eq_valid {outcome : Outcome} (h : outcome.AgreeButPlace .valid) :
    outcome = .valid := by
  cases h
  rfl

theorem isBlank_toList_iff {text : String} :
    IsBlank text.toList ↔ Text.isBlankText text = true := by
  rw [Text.isBlankText, List.all_eq_true]
  rfl

/-- A text is as blank with blank characters around it as without. -/
theorem isBlankText_surrounded {before after : String} (hbefore : Text.isBlankText before = true)
    (hafter : Text.isBlankText after = true) (text : String) :
    Text.isBlankText (before ++ text ++ after) = Text.isBlankText text := by
  simp only [Text.isBlankText, String.toList_append, List.all_append] at hbefore hafter ⊢
  rw [hbefore, hafter, Bool.true_and, Bool.and_true]

/-- A text with blank characters around it that are not layout is no filter. -/
theorem exists_parse_eq_error {before text after : String}
    (hbefore : Text.isBlankText before = true) (hafter : Text.isBlankText after = true)
    (h : ¬ (IsLayout before.toList ∧ IsLayout after.toList)) :
    ∃ fault, parse (before ++ text ++ after) = .error fault := by
  cases hparse : parse (before ++ text ++ after) with
  | error fault => exact ⟨fault, rfl⟩
  | ok expr =>
    have hfilter := isFilter_of_parse hparse
    rw [String.toList_append, String.toList_append] at hfilter
    obtain ⟨hlead, htrail, -⟩ := isFilter_of_surrounded (isBlank_toList_iff.mpr hbefore)
      (isBlank_toList_iff.mpr hafter) hfilter
    exact absurd ⟨hlead, htrail⟩ h

namespace Scope

variable {τ : Type} [Described τ] (scope : Scope τ)

/-- A blank filter is valid. -/
theorem checkText_of_isBlankText {text : String} (h : Text.isBlankText text = true) :
    scope.checkText text = .valid := by
  rw [checkText, if_pos h]

/-- A filter that is not blank and cannot be read is reported with the message of its fault. -/
theorem checkText_of_parse_eq_error {text : String} {fault : SyntaxFault}
    (hblank : Text.isBlankText text = false) (h : parse text = .error fault) :
    scope.checkText text = .invalid (.invalidSyntax fault.message) := by
  rw [checkText, hblank, h]
  rfl

/-- Layout around a filter changes no more than the place of a syntax violation. -/
theorem checkText_layout_agree {before after : String} (hbefore : IsLayout before.toList)
    (hafter : IsLayout after.toList) (text : String) :
    (scope.checkText (before ++ text ++ after)).AgreeButPlace (scope.checkText text) := by
  have hblank : Text.isBlankText (before ++ text ++ after) = Text.isBlankText text :=
    isBlankText_surrounded (isBlank_toList_iff.mp hbefore.isBlank)
      (isBlank_toList_iff.mp hafter.isBlank) text
  cases htext : Text.isBlankText text with
  | true =>
    rw [scope.checkText_of_isBlankText htext, scope.checkText_of_isBlankText (hblank.trans htext)]
    exact .same _
  | false =>
    cases hparse : parse text with
    | ok expr =>
      have hfilter := (isFilter_of_parse hparse).surround hbefore hafter
      rw [← String.toList_append, ← String.toList_append] at hfilter
      rw [scope.checkText_of_parse hparse, scope.checkText_of_parse (parse_of_isFilter hfilter)]
      exact .same _
    | error fault =>
      obtain ⟨offset, hparse'⟩ := parse_eq_error_surrounded hbefore hafter hparse
      rw [scope.checkText_of_parse_eq_error htext hparse,
        scope.checkText_of_parse_eq_error (hblank.trans htext) hparse']
      exact .place fault.cause offset fault.offset

/-- **Blank characters around a filter.** Write any blank characters before and behind a text. If
the text is blank, it is valid with them and without them. If they are layout, the outcome is the
same up to the place of a syntax violation. If the text is not blank and they are not all layout, a
syntax violation is reported. -/
theorem checkText_surrounded {before after : String} (hbefore : Text.isBlankText before = true)
    (hafter : Text.isBlankText after = true) (text : String) :
    (Text.isBlankText text = true →
      scope.checkText (before ++ text ++ after) = .valid ∧ scope.checkText text = .valid) ∧
    (IsLayout before.toList → IsLayout after.toList →
      (scope.checkText (before ++ text ++ after)).AgreeButPlace (scope.checkText text)) ∧
    (Text.isBlankText text = false → ¬ (IsLayout before.toList ∧ IsLayout after.toList) →
      ∃ fault : SyntaxFault, scope.checkText (before ++ text ++ after) =
        .invalid (.invalidSyntax fault.message)) := by
  have hblank : Text.isBlankText (before ++ text ++ after) = Text.isBlankText text :=
    isBlankText_surrounded hbefore hafter text
  refine ⟨fun htext => ⟨?_, scope.checkText_of_isBlankText htext⟩, ?_, fun htext hlayout => ?_⟩
  · exact scope.checkText_of_isBlankText (hblank.trans htext)
  · intro hlead htrail
    exact scope.checkText_layout_agree hlead htrail text
  · obtain ⟨fault, hparse⟩ := exists_parse_eq_error hbefore hafter hlayout
    exact ⟨fault, scope.checkText_of_parse_eq_error (hblank.trans htext) hparse⟩

end Scope

theorem parse_annText : parse "name==\"Ann\"" = .ok (.comparison ⟨⟨"name"⟩, .equal, ["Ann"]⟩) := by
  have hwellFormed : Expr.WellFormed (.comparison ⟨⟨"name"⟩, .equal, ["Ann"]⟩) :=
    .comparison ⟨by decide, List.all_eq_true.mp (by decide), by decide, by decide⟩
  have htext : "name==\"Ann\"".toList = Expr.chars (.comparison ⟨⟨"name"⟩, .equal, ["Ann"]⟩) := by
    decide
  exact parse_of_isFilter (htext ▸ isFilter_chars hwellFormed)

theorem checkText_surrounded_annText :
    Text.isBlankText "\n " = true ∧ Text.isBlankText "\t" = true ∧
      Text.isBlankText "\u3000" = true ∧
      (personScope.checkText ("\n " ++ "name==" ++ "\t")).AgreeButPlace
        (personScope.checkText "name==") ∧
      (∃ fault : SyntaxFault, personScope.checkText ("\n " ++ "name==\"Ann\"" ++ "\u3000") =
        .invalid (.invalidSyntax fault.message)) ∧
      personScope.checkText ("\n " ++ "\u3000" ++ "\t") = .valid := by
  have hlayout : IsLayout "\n ".toList ∧ IsLayout "\t".toList ∧ ¬ IsLayout "\u3000".toList := by
    simp [IsLayout, Text.isLayout]
  have hbefore : Text.isBlankText "\n " = true := by decide
  have hafter : Text.isBlankText "\t" = true := by decide
  have hspace : Text.isBlankText "\u3000" = true := by decide
  refine ⟨hbefore, hafter, hspace, ?_, ?_, ?_⟩
  · exact (personScope.checkText_surrounded hbefore hafter "name==").2.1 hlayout.1 hlayout.2.1
  · exact (personScope.checkText_surrounded hbefore hspace "name==\"Ann\"").2.2 (by decide)
      fun hboth => hlayout.2.2 hboth.2
  · exact ((personScope.checkText_surrounded hbefore hafter "\u3000").1 hspace).1

/-- A no-break space is blank, and in front of a valid filter it makes it invalid. -/
theorem not_agree_noBreakSpace :
    Text.isBlankText "\u00A0" = true ∧
      personScope.checkText "name==\"Ann\"" = .valid ∧
      personScope.checkText ("\u00A0" ++ "name==\"Ann\"") =
        .invalid (.invalidSyntax "Invalid filter syntax at offset 0: invalid selector") ∧
      ¬ ∀ before after text : String,
        Text.isBlankText before = true → Text.isBlankText after = true →
          (personScope.checkText (before ++ text ++ after)).AgreeButPlace
            (personScope.checkText text) := by
  have hvalid : personScope.checkText "name==\"Ann\"" = .valid := by
    rw [personScope.checkText_of_parse parse_annText]
    decide
  have hparse : parse ("\u00A0" ++ "name==\"Ann\"") = .error ⟨0, .invalidSelector⟩ := by
    simp only [parse]
    rw [chain, operand, chain, operand, term, group?]
    rfl
  have hinvalid := personScope.checkText_of_parse_eq_error (by decide) hparse
  refine ⟨by decide, hvalid, hinvalid, fun h => ?_⟩
  have hagree := h "\u00A0" "" "name==\"Ann\"" (by decide) (by decide)
  rw [String.append_empty, hinvalid, hvalid] at hagree
  cases hagree.eq_valid

end FilterScope
