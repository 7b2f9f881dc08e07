import FilterScope.Proofs.Filter.Joining
import FilterScope.Proofs.Filter.Refusal

/-!
# Blank characters around a filter

Layout may stand around a filter, and other blank characters may not. Both follow from how a filter
begins and ends: neither its first character nor its last one is blank, layout aside (`Opens`,
`Closes`).

* A text that blank characters stand around is a filter only if they are layout, and then the text
  is a filter on its own (`isFilter_of_surrounded`).
* A text that is no filter is rejected for the same cause with layout around it
  (`parse_eq_error_surrounded`). What is looked for and not found in the text is not found in the
  layout either, because it would end with a character that is not blank.
-/

namespace FilterScope.Filter

open Text

/-! ## How the parts of a filter end -/

/-- A text of blank characters only, possibly empty. -/
def IsBlank (text : List Char) : Prop :=
  ∀ c ∈ text, isBlank c = true

theorem IsLayout.isBlank {text : List Char} (h : IsLayout text) : IsBlank text :=
  fun c hc => isBlank_of_isLayout (h c hc)

/-- A text that ends with a character that is not blank. -/
def Closes (text : List Char) : Prop :=
  ∃ c, text.getLast? = some c ∧ isBlank c = false

theorem closes_append_singleton {c : Char} (front : List Char) (h : isBlank c = false) :
    Closes (front ++ [c]) :=
  ⟨c, List.getLast?_concat, h⟩

namespace Closes

variable {text : List Char}

theorem append (h : Closes text) (front : List Char) : Closes (front ++ text) := by
  obtain ⟨c, hlast, hc⟩ := h
  exact ⟨c, by rw [List.getLast?_append, hlast, Option.some_or], hc⟩

/-- Such a text does not go on into blank characters behind another one. -/
theorem prefix_of_prefix_append {cs blank : List Char} (h : Closes text) (hblank : IsBlank blank)
    (hfront : text <+: cs ++ blank) : text <+: cs := by
  have hcs : cs <+: cs ++ blank := List.prefix_append cs blank
  rcases Nat.le_total text.length cs.length with hle | hle
  · exact List.prefix_of_prefix_length_le hfront hcs hle
  · obtain ⟨more, rfl⟩ := List.prefix_of_prefix_length_le hcs hfront hle
    rw [List.prefix_append_right_inj] at hfront
    obtain ⟨c, hlast, hc⟩ := h
    rw [List.getLast?_append] at hlast
    cases hmore : more.getLast? with
    | none =>
      rw [List.getLast?_eq_none_iff] at hmore
      simp [hmore]
    | some d =>
      rw [hmore, Option.some_or] at hlast
      obtain rfl := Option.some.inj hlast
      have hd := hblank d (hfront.subset (List.mem_of_getLast? hmore))
      rw [hc] at hd
      cases hd

end Closes

/-- A bare word closes. -/
theorem IsWord.closes {text : List Char} (h : IsWord text) : Closes text := by
  obtain ⟨c, hlast⟩ := Option.isSome_iff_exists.mp (List.getLast?_isSome.mpr h.1)
  have hc := h.2 c (List.mem_of_getLast? hlast)
  simp only [isUnreserved, Bool.and_eq_true, Bool.not_eq_true'] at hc
  exact ⟨c, hlast, hc.1⟩

theorem IsValue.closes {text : List Char} {value : String} (h : IsValue text value) :
    Closes text := by
  cases h with
  | word hword => exact hword.closes
  | quoted hquote _ =>
    refine closes_append_singleton _ ?_
    rcases hquote with rfl | rfl <;> decide

theorem IsArguments.closes {text : List Char} {values : List String} (h : IsArguments text values) :
    Closes text := by
  cases h with
  | single hvalue => exact hvalue.closes
  | list => exact closes_append_singleton _ (by decide)

theorem Spelling.closes {s : Spelling} (h : s ∈ Spelling.all) : Closes s.text := by
  have hall : ∀ s ∈ Spelling.all, s.text.getLast?.any (!isBlank ·) = true := by decide
  have hlast := hall s h
  rw [Option.any_eq_true] at hlast
  obtain ⟨c, hc, hblank⟩ := hlast
  exact ⟨c, hc, by simpa using hblank⟩

theorem IsComparison.closes {text : List Char} {comparison : Comparison}
    (h : IsComparison text comparison) : Closes text := by
  obtain ⟨-, -, -, -, harguments, -⟩ := h
  exact harguments.closes.append _

mutual

theorem IsOperand.closes {connective : Connective} {text : List Char} {expr : Expr} :
    IsOperand connective text expr → Closes text
  | .chain hchain => hchain.closes
  | .comparison hcomparison => hcomparison.closes
  | .group _ _ _ => closes_append_singleton _ (by decide)

theorem IsChain.closes {connective : Connective} {text : List Char} {expr : Expr} :
    IsChain connective text expr → Closes text
  | .intro hfirst hmore => hmore.closes_append hfirst.closes

/-- The operands of a chain end as its last one does. -/
theorem IsMore.closes_append {connective : Connective} {text more : List Char}
    {exprs : List Expr} : IsMore connective more exprs → Closes text → Closes (text ++ more)
  | .nil, htext => by rwa [List.append_nil]
  | .cons _ hfirst hmore, _ => by
    rw [List.append_assoc]
    exact ((hmore.closes_append hfirst.closes).append _).append _

end

/-! ## Texts that are filters -/

/-- Blank characters around a filter are layout, and the text between them is a filter. -/
theorem isFilter_of_surrounded {before cs after : List Char} {expr : Expr}
    (hbefore : IsBlank before) (hafter : IsBlank after)
    (h : IsFilter (before ++ cs ++ after) expr) :
    IsLayout before ∧ IsLayout after ∧ IsFilter cs expr := by
  generalize hall : before ++ cs ++ after = all at h
  obtain @⟨lead, text, trail, expr, hlead, hchain, htrail⟩ := h
  rw [List.append_assoc, List.append_assoc] at hall
  -- What stands before is a part of the layout that the filter begins with.
  obtain ⟨lead', rfl, hcs⟩ : ∃ lead', lead = before ++ lead' ∧
      cs ++ after = lead' ++ (text ++ trail) := by
    rcases List.append_eq_append_iff.mp hall with h | ⟨more, hmore, hcs⟩
    · exact h
    · cases more with
      | nil => exact ⟨[], by simpa using hmore.symm, hcs.symm⟩
      | cons d more =>
        obtain ⟨c, _, rfl, hc⟩ := hchain.opens
        obtain ⟨rfl, -⟩ := List.cons.inj hcs
        have hd := hbefore c (hmore ▸ by simp)
        rw [isBlank_of_isOpening hc] at hd
        cases hd
  -- The filter ends before what stands after.
  have hcloses : Closes (lead' ++ text) := hchain.closes.append lead'
  have hfront : lead' ++ text <+: cs ++ after := ⟨trail, by rw [hcs, List.append_assoc]⟩
  obtain ⟨trail', rfl⟩ := hcloses.prefix_of_prefix_append hafter hfront
  have htrailEq : trail = trail' ++ after := by
    simpa [List.append_assoc] using hcs.symm
  subst htrailEq
  have hlead' : IsLayout lead' := fun c hc => hlead c (List.mem_append_right _ hc)
  have htrail' : IsLayout trail' := fun c hc => htrail c (List.mem_append_left _ hc)
  exact ⟨fun c hc => hlead c (List.mem_append_left _ hc),
    fun c hc => htrail c (List.mem_append_right _ hc), .intro hlead' hchain htrail'⟩

/-- A filter with layout around it is a filter. -/
theorem IsFilter.surround {before cs after : List Char} {expr : Expr} (h : IsFilter cs expr)
    (hbefore : IsLayout before) (hafter : IsLayout after) :
    IsFilter (before ++ cs ++ after) expr := by
  obtain ⟨hlead, hchain, htrail⟩ := h
  have houter := IsFilter.intro (hbefore.append hlead) hchain (htrail.append hafter)
  simpa only [List.append_assoc] using houter

/-! ## Texts that are no filters -/

/-- Layout behind a text is dropped with the layout of the text, or stays behind what is left. -/
theorem exists_dropLayout_append (cs : List Char) {layout : List Char} (h : IsLayout layout) :
    ∃ left, IsLayout left ∧ dropLayout (cs ++ layout) = dropLayout cs ++ left := by
  cases hcs : dropLayout cs with
  | nil =>
    refine ⟨[], isLayout_nil, ?_⟩
    obtain ⟨inner, hinner, hlayout⟩ := exists_isLayout_append cs
    rw [hinner, hcs, List.append_nil, dropLayout_append hlayout, dropLayout_eq_nil h]
    rfl
  | cons c more =>
    refine ⟨layout, h, ?_⟩
    rw [dropLayout, List.dropWhile_append, ← dropLayout, hcs]
    rfl

/-- Layout at the end lets no bare word go on. -/
theorem stops_append_layout {cs layout : List Char} (hcs : Stops isUnreserved cs)
    (h : IsLayout layout) : Stops isUnreserved (cs ++ layout) := by
  cases cs with
  | nil => exact (follows_layout .and h).ends
  | cons c cs => exact stops_cons.mpr (stops_cons.mp hcs)

/-- Layout at the end makes no other spelling fit. -/
theorem Spelling.Fits.append_layout {s : Spelling} {cs rest layout : List Char}
    (h : s.Fits cs rest) (hlayout : IsLayout layout) : s.Fits (cs ++ layout) (rest ++ layout) where
  mem := h.mem
  text_append := by rw [h.text_append, List.append_assoc]
  longest other hother hfront := h.longest other hother
    ((Spelling.closes hother).prefix_of_prefix_append hlayout.isBlank hfront)

/-- With layout behind it a text is refused for the same reason, though the place may be another
one. -/
theorem Refuses.append_layout {cs layout : List Char} {failure : Failure} (h : Refuses cs failure)
    (hlayout : IsLayout layout) : ∃ rest, Refuses (cs ++ layout) ⟨failure.cause, rest⟩ := by
  cases h with
  | selector hnone => exact ⟨_, .selector (stops_append_layout hnone hlayout)⟩
  | @operator word cs hword hends hnone =>
    obtain ⟨left, hleft, hdrop⟩ := exists_dropLayout_append cs hlayout
    rw [List.append_assoc]
    refine ⟨_, .operator hword (stops_append_layout hends hlayout) ?_⟩
    intro s hs hfront
    rw [hdrop] at hfront
    exact hnone s hs ((Spelling.closes hs).prefix_of_prefix_append hleft.isBlank hfront)
  | @argument word cs rest s hword hends hoperator hnone =>
    obtain ⟨left, hleft, hdrop⟩ := exists_dropLayout_append cs hlayout
    obtain ⟨left', hleft', hdrop'⟩ := exists_dropLayout_append rest hleft
    have hfits : s.Fits (dropLayout (cs ++ layout)) (rest ++ left) :=
      hdrop ▸ hoperator.append_layout hleft
    rw [List.append_assoc]
    refine ⟨_, .argument hword (stops_append_layout hends hlayout) hfits ?_⟩
    intro text values harguments hfront
    rw [hdrop'] at hfront
    exact hnone text values harguments
      (harguments.closes.prefix_of_prefix_append hleft'.isBlank hfront)
  | @singleArgument word cs rest text left₀ s values hword hends hoperator harguments hrest hone
      hcount =>
    obtain ⟨left, hleft, hdrop⟩ := exists_dropLayout_append cs hlayout
    obtain ⟨left', hleft', hdrop'⟩ := exists_dropLayout_append rest hleft
    have hfits : s.Fits (dropLayout (cs ++ layout)) (rest ++ left) :=
      hdrop ▸ hoperator.append_layout hleft
    have hrest' : dropLayout (rest ++ left) = text ++ (left₀ ++ left') := by
      rw [hdrop', hrest, List.append_assoc]
    rw [List.append_assoc]
    exact ⟨_, .singleArgument hword (stops_append_layout hends hlayout) hfits harguments hrest' hone
      hcount⟩

/-- A chain is read from a text exactly if the text begins with one. -/
theorem exists_chain_iff {connective : Connective} {cs : List Char} :
    (∃ r, chain connective cs = .ok r) ↔
      ∃ text expr, text <+: cs ∧ IsChain connective text expr := by
  constructor
  · rintro ⟨r, hread⟩
    obtain ⟨text, hcs, hchain⟩ := isChain_of_chain hread
    exact ⟨text, r.value, ⟨r.rest, hcs.symm⟩, hchain⟩
  · rintro ⟨text, expr, ⟨rest, rfl⟩, hchain⟩
    obtain ⟨value, left, hread, -⟩ := covers_chain hchain rest
    obtain ⟨bound, hok⟩ := hread.exists_ok
    exact ⟨_, hok⟩

/-- Layout at the end makes no difference to whether a chain is read. -/
theorem exists_chain_append_iff {connective : Connective} {cs layout : List Char}
    (h : IsLayout layout) :
    (∃ r, chain connective (cs ++ layout) = .ok r) ↔ ∃ r, chain connective cs = .ok r := by
  rw [exists_chain_iff, exists_chain_iff]
  constructor
  · rintro ⟨text, expr, hfront, hchain⟩
    exact ⟨text, expr, hchain.closes.prefix_of_prefix_append h.isBlank hfront, hchain⟩
  · rintro ⟨text, expr, hfront, hchain⟩
    exact ⟨text, expr, hfront.trans (List.prefix_append cs layout), hchain⟩

/-- A text is rejected for what is left behind a chain, or as the comparison at its start is. -/
theorem cause_of_parse_eq_error {text : String} {fault : SyntaxFault}
    (h : parse text = .error fault) :
    ((∃ r, chain .or (dropLayout text.toList) = .ok r) ∧ fault.cause = .unexpectedInput) ∨
      ((¬ ∃ r, chain .or (dropLayout text.toList) = .ok r) ∧
        ∃ rest, Refuses (dropLayout text.toList) ⟨fault.cause, rest⟩) := by
  simp only [parse] at h
  split at h
  · next failure hfailure =>
    obtain rfl := Except.error.inj h
    refine .inr ⟨?_, failure.rest, ?_⟩
    · rintro ⟨r, hok⟩
      cases hfailure.symm.trans hok
    · exact refuses_of_comparison_eq_error (comparison_eq_error_of_chain hfailure)
  · next filter hfilter =>
    split at h
    · cases h
    · obtain rfl := Except.error.inj h
      exact .inl ⟨⟨filter, hfilter⟩, rfl⟩

/-- With layout around it a text that is no filter is rejected for the same cause. -/
theorem parse_eq_error_surrounded {before text after : String} {fault : SyntaxFault}
    (hbefore : IsLayout before.toList) (hafter : IsLayout after.toList)
    (h : parse text = .error fault) :
    ∃ offset, parse (before ++ text ++ after) = .error ⟨offset, fault.cause⟩ := by
  have hlist : (before ++ text ++ after).toList = before.toList ++ text.toList ++ after.toList := by
    simp
  cases hparse : parse (before ++ text ++ after) with
  | ok expr =>
    have hfilter := isFilter_of_parse hparse
    rw [hlist] at hfilter
    have hinner := (isFilter_of_surrounded hbefore.isBlank hafter.isBlank hfilter).2.2
    cases h.symm.trans (parse_of_isFilter hinner)
  | error fault' =>
    obtain ⟨left, hleft, hdrop⟩ := exists_dropLayout_append text.toList hafter
    have hstart : dropLayout (before ++ text ++ after).toList = dropLayout text.toList ++ left := by
      rw [hlist, List.append_assoc, dropLayout_append hbefore, hdrop]
    have hcause' := cause_of_parse_eq_error hparse
    rw [hstart, exists_chain_append_iff hleft] at hcause'
    suffices hsame : fault'.cause = fault.cause from ⟨fault'.offset, hsame ▸ rfl⟩
    rcases cause_of_parse_eq_error h with ⟨hok, hcause⟩ | ⟨hfail, rest, hrefuses⟩
    · rcases hcause' with ⟨-, hcause'⟩ | ⟨hfail, -⟩
      · rw [hcause, hcause']
      · exact absurd hok hfail
    · rcases hcause' with ⟨hok, -⟩ | ⟨-, rest', hrefuses'⟩
      · exact absurd hok hfail
      · -- A comparison fails in one way only.
        obtain ⟨rest'', hrefuses''⟩ := hrefuses.append_layout hleft
        have hread := comparison_eq_error_of_refuses hrefuses'
        have hread' := comparison_eq_error_of_refuses hrefuses''
        exact congrArg Failure.cause (Except.error.inj (hread.symm.trans hread'))

end FilterScope.Filter
