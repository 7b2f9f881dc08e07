import FilterScope.Check.Validator
import FilterScope.Proofs.Filter.Joining

/-!
# A filter is checked leaf by leaf

The walk through an expression goes by its shape, and stops where a comparison fails. What comes of
it depends on neither: it is the first violation among the outcomes of the comparisons, each checked
on its own, in the order in which they are written (`Scope.check_eq_first`).

So connectives, grouping, operators and arguments have no say. An expression is valid if each of its
comparisons is, a violation is that of the leftmost comparison that has one, and expressions with
the same selectors in the same order have the same outcome.

The same holds of texts. Two filters with a separator between them are regrouped as one filter, but
its comparisons are those of the one and then those of the other; so it is checked as the one, and
if that is valid as the other (`Scope.checkText_join`).
-/

namespace FilterScope

open FilterScope.Filter

variable {τ : Type}

/-! ## The first violation of a list of outcomes -/

namespace Outcome

@[simp] theorem valid_andThen (next : Outcome) : valid.andThen next = next := rfl

@[simp] theorem invalid_andThen (violation : Violation) (next : Outcome) :
    (invalid violation).andThen next = .invalid violation := rfl

/-- Which outcomes are put together first makes no difference. -/
theorem andThen_assoc (first second third : Outcome) :
    (first.andThen second).andThen third = first.andThen (second.andThen third) := by
  cases first <;> rfl

/-- The first violation of a list of outcomes. -/
def first (outcomes : List Outcome) : Outcome :=
  outcomes.foldr andThen .valid

@[simp] theorem first_nil : first [] = .valid := rfl

@[simp] theorem first_cons (outcome : Outcome) (more : List Outcome) :
    first (outcome :: more) = outcome.andThen (first more) := rfl

/-- The first violation of two lists is sought in the one, then in the other. -/
theorem first_append (outcomes more : List Outcome) :
    first (outcomes ++ more) = (first outcomes).andThen (first more) := by
  induction outcomes with
  | nil => rfl
  | cons outcome outcomes ih => rw [List.cons_append, first_cons, first_cons, ih, andThen_assoc]

/-- No violation comes first if and only if there is none. -/
theorem first_eq_valid_iff {outcomes : List Outcome} :
    first outcomes = .valid ↔ ∀ outcome ∈ outcomes, outcome = .valid := by
  induction outcomes with
  | nil => simp
  | cons outcome outcomes ih =>
    cases outcome with
    | valid => simp [ih]
    | invalid violation => simp

/-- A violation that comes first is behind valid outcomes only. -/
theorem exists_append_of_first_eq {outcomes : List Outcome} {violation : Violation}
    (h : first outcomes = .invalid violation) :
    ∃ before after, outcomes = before ++ .invalid violation :: after ∧
      ∀ outcome ∈ before, outcome = .valid := by
  induction outcomes with
  | nil => cases h
  | cons outcome outcomes ih =>
    cases outcome with
    | invalid other =>
      obtain rfl := Outcome.invalid.inj h
      exact ⟨[], outcomes, rfl, nofun⟩
    | valid =>
      obtain ⟨before, after, rfl, hbefore⟩ := ih h
      exact ⟨.valid :: before, after, rfl, List.forall_mem_cons.mpr ⟨rfl, hbefore⟩⟩

end Outcome

/-! ## Expressions -/

namespace Scope

variable [Described τ] (scope : Scope τ)

/-- The outcomes of comparisons, each checked on its own. -/
def outcomes (comparisons : List Comparison) : List Outcome :=
  comparisons.map fun comparison => scope.check (.comparison comparison)

/-- Checking a comparison looks at its selector alone. -/
theorem outcomes_eq (comparisons : List Comparison) :
    scope.outcomes comparisons = (comparisons.map (·.selector)).map scope.checkSelector := by
  rw [outcomes, List.map_map]
  refine List.map_congr_left fun comparison _ => ?_
  rw [check]
  rfl

mutual

/-- The outcome of an expression is the first violation among those of its comparisons. -/
theorem check_eq_first : ∀ expr : Expr,
    scope.check expr = .first (scope.outcomes expr.comparisons)
  | .comparison comparison => by
    rw [Expr.comparisons, outcomes]
    cases h : scope.check (.comparison comparison) <;> simp [h]
  | .logical connective operands => by
    rw [check, Expr.comparisons]
    exact checkAll_eq_first operands

/-- Expressions are checked like the list of all their comparisons. -/
theorem checkAll_eq_first : ∀ exprs : List Expr,
    scope.checkAll exprs = .first (scope.outcomes (exprs.flatMap Expr.comparisons))
  | [] => by
    rw [checkAll]
    rfl
  | expr :: exprs => by
    rw [checkAll, check_eq_first expr, checkAll_eq_first exprs, List.flatMap_cons, outcomes,
      outcomes, outcomes, List.map_append, Outcome.first_append]

end

/-- An expression is valid if and only if each of its comparisons is. -/
theorem check_eq_valid_iff (expr : Expr) :
    scope.check expr = .valid ↔
      ∀ leaf ∈ expr.comparisons, scope.check (.comparison leaf) = .valid := by
  rw [check_eq_first, Outcome.first_eq_valid_iff, outcomes, List.forall_mem_map]

/-- The outcome of an expression that is not valid is that of the first comparison that is not. -/
theorem exists_leaf_of_check_ne_valid {expr : Expr} (h : scope.check expr ≠ .valid) :
    ∃ before leaf after, expr.comparisons = before ++ leaf :: after ∧
      (∀ earlier ∈ before, scope.check (.comparison earlier) = .valid) ∧
      scope.check (.comparison leaf) ≠ .valid ∧
      scope.check expr = scope.check (.comparison leaf) := by
  cases hcheck : scope.check expr with
  | valid => exact absurd hcheck h
  | invalid violation =>
    rw [check_eq_first] at hcheck
    obtain ⟨outcomesBefore, outcomesAfter, heq, hvalid⟩ := Outcome.exists_append_of_first_eq hcheck
    obtain ⟨before, rest, hleaves, rfl, hrest⟩ := List.map_eq_append_iff.mp heq
    obtain ⟨leaf, after, rfl, hleaf, rfl⟩ := List.map_eq_cons_iff.mp hrest
    refine ⟨before, leaf, after, hleaves, List.forall_mem_map.mp hvalid, ?_, hleaf.symm⟩
    rw [hleaf]
    exact Outcome.noConfusion

/-- Only the selectors of an expression matter, in their order. -/
theorem check_congr {expr other : Expr}
    (h : other.comparisons.map (·.selector) = expr.comparisons.map (·.selector)) :
    scope.check other = scope.check expr := by
  rw [check_eq_first, check_eq_first, outcomes_eq, outcomes_eq, h]

/-- **The leaves decide.** An expression is valid exactly if each of its comparisons is valid on its
own. Otherwise its outcome is that of the leftmost comparison that is not. So expressions whose
comparisons have the same selectors in the same order have the same outcome. -/
theorem check_by_leaves (expr : Expr) :
    (scope.check expr = .valid ↔
      ∀ leaf ∈ expr.comparisons, scope.check (.comparison leaf) = .valid) ∧
    (scope.check expr ≠ .valid →
      ∃ before leaf after, expr.comparisons = before ++ leaf :: after ∧
        (∀ earlier ∈ before, scope.check (.comparison earlier) = .valid) ∧
        scope.check (.comparison leaf) ≠ .valid ∧
        scope.check expr = scope.check (.comparison leaf)) ∧
    ∀ other : Expr, other.comparisons.map (·.selector) = expr.comparisons.map (·.selector) →
      scope.check other = scope.check expr :=
  ⟨scope.check_eq_valid_iff expr, scope.exists_leaf_of_check_ne_valid,
    fun _ h => scope.check_congr h⟩

end Scope

/-- A scope for persons, who have a name and an address. -/
def personScope : Scope Empty :=
  ⟨⟨"Person", [.plain "name", .resolved "address" ⟨"Address", [.plain "city"], none⟩], none⟩, .none,
    .default⟩

/-- Three comparisons, of which the second and the third are not valid for persons. -/
def nestedExpr : Expr :=
  .logical .and
    [.comparison ⟨⟨"name"⟩, .equal, ["Ann"]⟩,
     .logical .or
       [.comparison ⟨⟨"address"⟩, .equal, ["Ghent"]⟩, .comparison ⟨⟨"age"⟩, .greater, ["18"]⟩]]

/-- The same selectors in another shape, with connectives that join one expression or none. -/
def flatExpr : Expr :=
  .logical .or
    [.logical .and [], .logical .and [.comparison ⟨⟨"name"⟩, .among, ["Ann", "Bob"]⟩],
     .comparison ⟨⟨"address"⟩, .less, [""]⟩, .comparison ⟨⟨"age"⟩, .outside, ["1", "2"]⟩]

theorem check_by_leaves_nestedExpr :
    nestedExpr.comparisons.map (·.selector) = [⟨"name"⟩, ⟨"address"⟩, ⟨"age"⟩] ∧
      flatExpr.comparisons.map (·.selector) = nestedExpr.comparisons.map (·.selector) ∧
      personScope.check nestedExpr = .invalid (.missingNestedSelector "address" "Person") ∧
      personScope.check flatExpr = personScope.check nestedExpr ∧
      ∃ leaf ∈ nestedExpr.comparisons,
        personScope.check nestedExpr = personScope.check (.comparison leaf) := by
  obtain ⟨-, hfirst, hcongr⟩ := personScope.check_by_leaves nestedExpr
  have hselectors :
      flatExpr.comparisons.map (·.selector) = nestedExpr.comparisons.map (·.selector) := by
    simp [flatExpr, nestedExpr, Expr.comparisons]
  refine ⟨?_, hselectors, by decide, hcongr flatExpr hselectors, ?_⟩
  · simp [nestedExpr, Expr.comparisons]
  · obtain ⟨before, leaf, after, hleaves, -, -, heq⟩ := hfirst (by decide)
    exact ⟨leaf, by simp [hleaves], heq⟩

/-! ## Texts -/

/-- A text that is a filter is not blank: it has a character that an operand begins with. -/
theorem isBlankText_of_parse {text : String} {expr : Expr} (h : parse text = .ok expr) :
    Text.isBlankText text = false := by
  have hfilter := isFilter_of_parse h
  generalize htext : text.toList = cs at hfilter
  obtain @⟨before, inner, after, expr, hbefore, hchain, hafter⟩ := hfilter
  obtain ⟨c, more, rfl, hc⟩ := hchain.opens
  rw [Text.isBlankText, htext, List.all_eq_false]
  exact ⟨c, by simp, by simp [isBlank_of_isOpening hc]⟩

namespace Scope

variable [Described τ] (scope : Scope τ)

/-- The check of a text is that of the expression that it stands for. -/
theorem checkText_of_parse {text : String} {expr : Expr} (h : parse text = .ok expr) :
    scope.checkText text = scope.check expr := by
  rw [checkText, isBlankText_of_parse h, h]
  rfl

/-- Joined expressions are checked one after the other. -/
theorem check_join {joined expr expr' : Expr}
    (h : joined.comparisons = expr.comparisons ++ expr'.comparisons) :
    scope.check joined = (scope.check expr).andThen (scope.check expr') := by
  rw [check_eq_first, check_eq_first, check_eq_first, h, outcomes, List.map_append,
    Outcome.first_append]
  rfl

/-- Joined texts are checked one after the other. -/
theorem checkText_join {connective : Connective} {text separator text' : String}
    {expr expr' : Expr} (h : parse text = .ok expr)
    (hseparator : IsSeparator connective separator.toList) (h' : parse text' = .ok expr') :
    scope.checkText (text ++ separator ++ text') =
      (scope.checkText text).andThen (scope.checkText text') := by
  obtain ⟨joined, hjoined, hcomparisons⟩ := exists_parse_join h hseparator h'
  rw [scope.checkText_of_parse hjoined, scope.checkText_of_parse h, scope.checkText_of_parse h',
    scope.check_join hcomparisons]

end Scope

/-- **Joined filters.** Two filters with a separator of either connective between them are a filter,
whose comparisons are those of the one followed by those of the other. So it has the violation of
the first filter, whatever it is checked against, and if the first is valid the outcome of the
second. And parentheses around a filter change nothing. -/
theorem parse_and_check_joined {connective : Connective} {text separator text' : String}
    {expr expr' : Expr} (h : parse text = .ok expr)
    (hseparator : IsSeparator connective separator.toList) (h' : parse text' = .ok expr') :
    (∃ joined, parse (text ++ separator ++ text') = .ok joined ∧
      joined.comparisons = expr.comparisons ++ expr'.comparisons) ∧
    (∀ {τ : Type} [Described τ] (scope : Scope τ),
      scope.checkText (text ++ separator ++ text') =
        (scope.checkText text).andThen (scope.checkText text')) ∧
    parse ("(" ++ text ++ ")") = parse text :=
  ⟨exists_parse_join h hseparator h', fun scope => scope.checkText_join h hseparator h',
    (parse_group h).trans h.symm⟩

/-- A choice of two comparisons, of which the second is not valid for persons. -/
def choiceExpr : Expr :=
  .logical .or
    [.comparison ⟨⟨"name"⟩, .equal, ["Ann"]⟩, .comparison ⟨⟨"age"⟩, .greater, ["18"]⟩]

/-- A comparison with another violation. -/
def addressExpr : Expr :=
  .comparison ⟨⟨"address"⟩, .equal, ["Ghent"]⟩

theorem parse_and_check_joined_regrouped :
    parse "name==\"Ann\",age=gt=\"18\"" = .ok choiceExpr ∧
      parse "address==\"Ghent\"" = .ok addressExpr ∧
      IsSeparator .and "\tAnD ".toList ∧
      (∃ joined,
        parse ("name==\"Ann\",age=gt=\"18\"" ++ "\tAnD " ++ "address==\"Ghent\"") = .ok joined ∧
          joined.comparisons.length = 3) ∧
      personScope.checkText
        ("name==\"Ann\",age=gt=\"18\"" ++ "\tAnD " ++ "address==\"Ghent\"") =
          .invalid (.unknownField "age" "Person") := by
  have hchoice : choiceExpr.WellFormed := by
    refine .logical (by decide) fun operand hoperand => ?_
    simp only [List.mem_cons, List.not_mem_nil, or_false] at hoperand
    rcases hoperand with rfl | rfl <;>
      exact .comparison ⟨by decide, List.all_eq_true.mp (by decide), by decide, by decide⟩
  have haddress : addressExpr.WellFormed :=
    .comparison ⟨by decide, List.all_eq_true.mp (by decide), by decide, by decide⟩
  have htext : "name==\"Ann\",age=gt=\"18\"".toList = choiceExpr.chars := by decide
  have htext' : "address==\"Ghent\"".toList = addressExpr.chars := by decide
  have hparse : parse "name==\"Ann\",age=gt=\"18\"" = .ok choiceExpr :=
    parse_of_isFilter (htext ▸ isFilter_chars hchoice)
  have hparse' : parse "address==\"Ghent\"" = .ok addressExpr :=
    parse_of_isFilter (htext' ▸ isFilter_chars haddress)
  have hlayout : IsLayout ['\t'] ∧ IsLayout [' '] := by
    simp [IsLayout, Text.isLayout]
  have hkeyword : IsSeparator .and (['\t'] ++ ['A', 'n', 'D'] ++ [' ']) :=
    .keyword hlayout.1 (by decide) (by decide) hlayout.2 (by decide)
  have hseparator : IsSeparator .and "\tAnD ".toList := hkeyword
  obtain ⟨⟨joined, hjoined, hcomparisons⟩, hcheck, -⟩ :=
    parse_and_check_joined hparse hseparator hparse'
  refine ⟨hparse, hparse', hseparator, ⟨joined, hjoined, ?_⟩, ?_⟩
  · rw [hcomparisons]
    simp [choiceExpr, addressExpr, Expr.comparisons]
  · rw [hcheck, personScope.checkText_of_parse hparse]
    decide

end FilterScope
