import FilterScope.Proofs.Filter.Printer

/-!
# Joining filters

Two filters with a separator between them are a filter again, and its comparisons are those of the
one followed by those of the other. Its expression is not made of the two expressions, though:
behind `a==1,b==2` a semicolon and `c==3` go into the operand `b==2`, because `and` binds tighter
than `or`. So what is carried along is not an expression but its comparisons: `Spells` says that a
text is a chain with the given comparisons, whatever the chain looks like.

* A chain goes on with another one of the same connective (`Spells.append`).
* An `or`-chain goes on with an `and`-chain behind an `and` (`Spells.append_and`), in its last
  operand. The induction is on the operands of the first chain, down to that last one.
-/

namespace FilterScope.Filter

open Text

/-! ## Layout around separators -/

theorem IsLayout.append {before after : List Char} (h : IsLayout before) (h' : IsLayout after) :
    IsLayout (before ++ after) :=
  List.forall_mem_append.mpr ⟨h, h'⟩

/-- Layout on either side of a separator belongs to it. -/
theorem IsSeparator.pad {connective : Connective} {separator before after : List Char}
    (h : IsSeparator connective separator) (hbefore : IsLayout before) (hafter : IsLayout after) :
    IsSeparator connective (before ++ separator ++ after) := by
  cases h with
  | @mark inner inner' hinner hinner' =>
    have hpadded : IsSeparator connective
        ((before ++ inner) ++ connective.mark :: (inner' ++ after)) :=
      .mark (hbefore.append hinner) (hinner'.append hafter)
    simpa only [List.append_assoc, List.cons_append] using hpadded
  | @keyword inner word inner' hinner hne hword hinner' hne' =>
    have hpadded := IsSeparator.keyword (hbefore.append hinner)
      (List.append_ne_nil_of_right_ne_nil before hne) hword (hinner'.append hafter)
      (List.append_ne_nil_of_left_ne_nil hne' after)
    simpa only [List.append_assoc] using hpadded

/-! ## Chains and their comparisons -/

/-- The comparisons of joined expressions are those of each, in order. -/
theorem Expr.comparisons_join (connective : Connective) (first : Expr) (more : List Expr) :
    (Expr.join connective first more).comparisons =
      first.comparisons ++ more.flatMap Expr.comparisons := by
  cases more with
  | nil => simp [Expr.join]
  | cons second more => simp [Expr.join, Expr.comparisons]

/-- Two continuations of a chain, one behind the other, are one. -/
theorem IsMore.append {connective : Connective} {text text' : List Char} {exprs exprs' : List Expr}
    (h : IsMore connective text exprs) (h' : IsMore connective text' exprs') :
    IsMore connective (text ++ text') (exprs ++ exprs') := by
  induction exprs generalizing text with
  | nil =>
    cases h
    exact h'
  | cons first exprs ih =>
    obtain _ | ⟨hseparator, hfirst, hmore⟩ := h
    rw [List.append_assoc]
    exact .cons hseparator hfirst (ih hmore)

/-- A text is a chain of a connective, and these are its comparisons. -/
def Spells (connective : Connective) (text : List Char) (comparisons : List Comparison) : Prop :=
  ∃ expr, IsChain connective text expr ∧ expr.comparisons = comparisons

namespace Spells

variable {connective : Connective} {text text' separator : List Char}
  {comparisons comparisons' : List Comparison}

theorem of_isOperand {expr : Expr} (h : IsOperand connective text expr) :
    Spells connective text expr.comparisons :=
  ⟨expr, h.isChain, rfl⟩

/-- A chain of `and` may stand as a chain of `or`. -/
theorem of_and (h : Spells .and text comparisons) : Spells .or text comparisons := by
  obtain ⟨expr, hchain, rfl⟩ := h
  exact ⟨expr, hchain.of_chain, rfl⟩

/-- A chain goes on with operands of its connective. -/
theorem append_more {exprs : List Expr} (h : Spells connective text comparisons)
    (hmore : IsMore connective text' exprs) :
    Spells connective (text ++ text') (comparisons ++ exprs.flatMap Expr.comparisons) := by
  obtain ⟨_, @⟨_, front, more, first, exprs', hfirst, hmore'⟩, rfl⟩ := h
  have hchain := IsChain.intro hfirst (hmore'.append hmore)
  refine ⟨.join connective first (exprs' ++ exprs), ?_, ?_⟩
  · rwa [List.append_assoc]
  · rw [Expr.comparisons_join, Expr.comparisons_join, List.flatMap_append, List.append_assoc]

/-- A chain goes on with another one of its connective. -/
theorem append (h : Spells connective text comparisons)
    (hseparator : IsSeparator connective separator)
    (h' : Spells connective text' comparisons') :
    Spells connective (text ++ separator ++ text') (comparisons ++ comparisons') := by
  obtain ⟨_, @⟨_, front, more, first, exprs, hfirst, hmore⟩, rfl⟩ := h'
  have hwhole := h.append_more (.cons hseparator hfirst hmore)
  rw [Expr.comparisons_join]
  simpa only [List.append_assoc, List.flatMap_cons] using hwhole

/-- An `and` behind an `or`-chain goes into the last operand of it. -/
theorem append_and (h : Spells .or text comparisons) (hseparator : IsSeparator .and separator)
    (h' : Spells .and text' comparisons') :
    Spells .or (text ++ separator ++ text') (comparisons ++ comparisons') := by
  obtain ⟨_, @⟨_, front, more, first, exprs, hfirst, hmore⟩, rfl⟩ := h
  rw [Expr.comparisons_join]
  induction exprs generalizing front more first with
  | nil =>
    cases hmore
    obtain ⟨hchain⟩ := hfirst
    have hlast : Spells .and front first.comparisons := ⟨first, hchain, rfl⟩
    simpa using (hlast.append hseparator h').of_and
  | cons second exprs ih =>
    obtain _ | ⟨hinner, hsecond, hmore⟩ := hmore
    have hwhole := (of_isOperand hfirst).append hinner (ih hsecond hmore)
    simpa only [List.append_assoc, List.flatMap_cons] using hwhole

/-- An `or`-chain goes on with another one behind a separator of either connective. -/
theorem join (h : Spells .or text comparisons) (hseparator : IsSeparator connective separator)
    (h' : Spells .or text' comparisons') :
    Spells .or (text ++ separator ++ text') (comparisons ++ comparisons') := by
  cases connective with
  | or => exact h.append hseparator h'
  | and =>
    -- Only the first operand of the second chain goes into the first one; the others follow.
    obtain ⟨_, @⟨_, front, more, first, exprs, hfirst, hmore⟩, rfl⟩ := h'
    obtain ⟨hchain⟩ := hfirst
    have hwhole := (h.append_and hseparator ⟨first, hchain, rfl⟩).append_more hmore
    rw [Expr.comparisons_join]
    simpa only [List.append_assoc] using hwhole

end Spells

/-! ## Whole filters -/

/-- Two filters with a separator between them are a filter with the comparisons of both. -/
theorem IsFilter.exists_join {connective : Connective} {text separator text' : List Char}
    {expr expr' : Expr} (h : IsFilter text expr) (hseparator : IsSeparator connective separator)
    (h' : IsFilter text' expr') :
    ∃ joined, IsFilter (text ++ separator ++ text') joined ∧
      joined.comparisons = expr.comparisons ++ expr'.comparisons := by
  obtain @⟨before, inner, after, expr, hbefore, hchain, hafter⟩ := h
  obtain @⟨before', inner', after', expr', hbefore', hchain', hafter'⟩ := h'
  have hmiddle := hseparator.pad hafter hbefore'
  have hspells : Spells .or inner expr.comparisons := ⟨expr, hchain, rfl⟩
  obtain ⟨joined, hjoined, hcomparisons⟩ := hspells.join hmiddle ⟨expr', hchain', rfl⟩
  refine ⟨joined, ?_, hcomparisons⟩
  have hfilter := IsFilter.intro hbefore hjoined hafter'
  simpa only [List.append_assoc] using hfilter

/-- A filter in parentheses is a filter. -/
theorem IsFilter.group {text : List Char} {expr : Expr} (h : IsFilter text expr) :
    IsFilter ('(' :: text ++ [')']) expr := by
  obtain ⟨hbefore, hchain, hafter⟩ := h
  have hoperand := IsOperand.group hbefore hchain hafter
  have hfilter := IsFilter.intro isLayout_nil hoperand.isChain.of_chain isLayout_nil
  simpa using hfilter

/-- Filters are joined by a separator of either connective. -/
theorem exists_parse_join {connective : Connective} {text separator text' : String}
    {expr expr' : Expr} (h : parse text = .ok expr)
    (hseparator : IsSeparator connective separator.toList) (h' : parse text' = .ok expr') :
    ∃ joined, parse (text ++ separator ++ text') = .ok joined ∧
      joined.comparisons = expr.comparisons ++ expr'.comparisons := by
  obtain ⟨joined, hfilter, hcomparisons⟩ :=
    (isFilter_of_parse h).exists_join hseparator (isFilter_of_parse h')
  refine ⟨joined, parse_of_isFilter ?_, hcomparisons⟩
  rwa [String.toList_append, String.toList_append]

/-- Parentheses around a filter change nothing. -/
theorem parse_group {text : String} {expr : Expr} (h : parse text = .ok expr) :
    parse ("(" ++ text ++ ")") = .ok expr := by
  apply parse_of_isFilter
  rw [String.toList_append, String.toList_append]
  exact (isFilter_of_parse h).group

end FilterScope.Filter
