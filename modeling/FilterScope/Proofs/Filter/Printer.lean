import FilterScope.Filter.Printer
import FilterScope.Proofs.Filter.Parser
import FilterScope.Proofs.Text.Pieces

/-!
# Canonical texts are read back

The expressions that a filter can stand for are exactly the well-formed ones, and each of them can
be read back from its canonical text. Both halves go through the grammar:

* whatever the grammar derives is well-formed (`IsFilter.wellFormed`), because a chain with one
  operand stands for the operand, and a list of arguments is never empty;
* the grammar derives a well-formed expression from its canonical text (`isFilter_chars`).

In the second half an expression is derived twice, from its text as a whole filter and from its
text as an operand of another expression. The two differ by the parentheses around a chain, and the
induction carries both.
-/

namespace FilterScope.Filter

open Text

/-! ## What is derived is well-formed -/

/-- There is always an argument. -/
theorem IsArguments.ne_nil {text : List Char} {values : List String} (h : IsArguments text values) :
    values ≠ [] := by
  cases h with
  | single => exact List.cons_ne_nil _ _
  | list => exact List.cons_ne_nil _ _

/-- A comparison that can be written is well-formed. -/
theorem IsComparison.wellFormed {text : List Char} {c : Comparison} (h : IsComparison text c) :
    c.WellFormed := by
  obtain ⟨hselector, -, -, -, harguments, hcount⟩ := h
  constructor
  · simpa using hselector.1
  · simpa using hselector.2
  · exact harguments.ne_nil
  · exact hcount

/-- Joining well-formed operands gives no chain of a single operand. -/
theorem Expr.WellFormed.join {connective : Connective} {first : Expr} {more : List Expr}
    (hfirst : first.WellFormed) (hmore : ∀ expr ∈ more, expr.WellFormed) :
    (Expr.join connective first more).WellFormed := by
  cases more with
  | nil => exact hfirst
  | cons second more =>
    refine .logical ?_ (List.forall_mem_cons.mpr ⟨hfirst, hmore⟩)
    simp only [List.length_cons]
    omega

mutual

theorem IsOperand.wellFormed {connective : Connective} {text : List Char} {expr : Expr} :
    IsOperand connective text expr → expr.WellFormed
  | .chain hchain => hchain.wellFormed
  | .comparison hcomparison => .comparison hcomparison.wellFormed
  | .group _ hchain _ => hchain.wellFormed

theorem IsChain.wellFormed {connective : Connective} {text : List Char} {expr : Expr} :
    IsChain connective text expr → expr.WellFormed
  | .intro hfirst hmore => hfirst.wellFormed.join hmore.wellFormed

theorem IsMore.wellFormed {connective : Connective} {text : List Char} {exprs : List Expr} :
    IsMore connective text exprs → ∀ expr ∈ exprs, expr.WellFormed
  | .nil => fun _ hexpr => absurd hexpr List.not_mem_nil
  | .cons _ hfirst hmore => List.forall_mem_cons.mpr ⟨hfirst.wellFormed, hmore.wellFormed⟩

end

/-- A filter that can be written is well-formed. -/
theorem IsFilter.wellFormed {text : List Char} {expr : Expr} (h : IsFilter text expr) :
    expr.WellFormed := by
  obtain ⟨-, hchain, -⟩ := h
  exact hchain.wellFormed

/-! ## Canonical texts of comparisons are derived -/

/-- A quoted argument says what was quoted. -/
theorem isValue_quotedArgument (argument : String) :
    IsValue (quotedArgument argument) argument := by
  have hvalue := IsValue.quoted (.inl rfl) (isQuoted_escaped '"' argument.toList)
  rwa [String.ofList_toList] at hvalue

/-- So do further ones, each behind a comma. -/
theorem isMoreValues_quotedArguments (arguments : List String) :
    IsMoreValues (arguments.flatMap fun argument => ',' :: quotedArgument argument) arguments := by
  induction arguments with
  | nil => exact .nil
  | cons argument arguments ih =>
    have hmore := IsMoreValues.cons isLayout_nil isLayout_nil (isValue_quotedArgument argument) ih
    exact hmore

/-- The text of arguments says the arguments. -/
theorem isArguments_argumentsText {arguments : List String} (h : arguments ≠ []) :
    IsArguments (argumentsText arguments) arguments := by
  match arguments, h with
  | [argument], _ => exact .single (isValue_quotedArgument argument)
  | first :: second :: more, _ =>
    have hlist := IsArguments.list isLayout_nil (isValue_quotedArgument first)
      (isMoreValues_quotedArguments (second :: more)) isLayout_nil
    have htext : argumentsText (first :: second :: more) = '(' :: [] ++ quotedArgument first ++
        ((second :: more).flatMap fun argument => ',' :: quotedArgument argument) ++ [] ++
          [')'] := by
      rw [argumentsText, List.map_cons, intercalate_cons, List.flatMap_map]
      · simp
      · simp
    rwa [htext]

/-- The canonical spelling of an operator is its symbol. -/
theorem Spelling.text_canonical (operator : Operator) :
    (canonical operator).text = operator.symbol.toList := by
  cases operator <;> rfl

theorem Spelling.operator_canonical (operator : Operator) :
    (canonical operator).operator = operator := by
  cases operator <;> rfl

/-- Every operator can be written in its canonical spelling. -/
theorem Spelling.canonical_mem_all (operator : Operator) : canonical operator ∈ all := by
  have hall : operator ∈ Operator.all := by
    cases operator <;> decide
  exact List.mem_append_left _ (List.mem_map_of_mem hall)

/-- The text of a comparison says the comparison. -/
theorem isComparison_chars {c : Comparison} (h : c.WellFormed) : IsComparison c.chars c := by
  obtain ⟨⟨text⟩, operator, arguments⟩ := c
  have hcount : (Spelling.canonical operator).operator.takesMany = true ∨ arguments.length = 1 := by
    rw [Spelling.operator_canonical]
    exact h.arguments_length
  have hcomparison := IsComparison.intro ⟨h.selector_ne, h.selector_unreserved⟩ isLayout_nil
    (Spelling.canonical_mem_all operator) isLayout_nil (isArguments_argumentsText h.arguments_ne)
    hcount
  rw [Spelling.text_canonical, Spelling.operator_canonical] at hcomparison
  simpa [Comparison.chars] using hcomparison

/-! ## Canonical texts of expressions are derived -/

/-- What stands in an `and`-chain may stand in any chain. -/
theorem IsOperand.of_and {text : List Char} {expr : Expr} (h : IsOperand .and text expr)
    (connective : Connective) : IsOperand connective text expr := by
  cases connective with
  | and => exact h
  | or =>
    have hchain := IsChain.intro h .nil
    rw [List.append_nil] at hchain
    exact .chain hchain

/-- An operand alone is a chain. -/
theorem IsOperand.isChain {connective : Connective} {text : List Char} {expr : Expr}
    (h : IsOperand connective text expr) : IsChain connective text expr := by
  have hchain := IsChain.intro h .nil
  rwa [List.append_nil] at hchain

/-- A chain of either connective may be a whole filter. -/
theorem IsChain.of_chain {connective : Connective} {text : List Char} {expr : Expr}
    (h : IsChain connective text expr) : IsChain .or text expr := by
  cases connective with
  | and => exact (IsOperand.chain h).isChain
  | or => exact h

theorem joined_cons (mark : Char) (first : Expr) (more : List Expr) :
    Expr.joined mark (first :: more) =
      first.grouped ++ more.flatMap fun expr => mark :: expr.grouped := by
  induction more generalizing first with
  | nil => simp [Expr.joined]
  | cons second more ih =>
    rw [Expr.joined, ih, List.flatMap_cons]
    · simp
    · exact List.cons_ne_nil _ _

/-- Grouped expressions, each behind a mark, continue a chain. -/
theorem isMore_grouped {connective : Connective} {exprs : List Expr}
    (h : ∀ expr ∈ exprs, IsOperand .and expr.grouped expr) :
    IsMore connective (exprs.flatMap fun expr => connective.mark :: expr.grouped) exprs := by
  induction exprs with
  | nil => exact .nil
  | cons first exprs ih =>
    obtain ⟨hfirst, hmore⟩ := List.forall_mem_cons.mp h
    exact .cons (.mark isLayout_nil isLayout_nil) (hfirst.of_and connective) (ih hmore)

/-- Two or more grouped expressions with marks between them are a chain. -/
theorem isChain_joined {connective : Connective} {exprs : List Expr} (hlength : 2 ≤ exprs.length)
    (h : ∀ expr ∈ exprs, IsOperand .and expr.grouped expr) :
    IsChain connective (Expr.joined connective.mark exprs) (.logical connective exprs) := by
  match exprs, hlength with
  | first :: second :: more, _ =>
    obtain ⟨hfirst, hmore⟩ := List.forall_mem_cons.mp h
    rw [joined_cons]
    exact .intro (hfirst.of_and connective) (isMore_grouped hmore)

/-- A well-formed expression is derived from its canonical text, and from the one that it has among
the operands of another expression. -/
theorem isOperand_grouped_and_isChain_chars {expr : Expr} (h : expr.WellFormed) :
    IsOperand .and expr.grouped expr ∧ IsChain .or expr.chars expr := by
  induction h with
  | @comparison c hc =>
    have hoperand : IsOperand .and c.chars (.comparison c) := .comparison (isComparison_chars hc)
    rw [Expr.grouped, Expr.chars]
    exact ⟨hoperand, hoperand.isChain.of_chain⟩
  | @logical connective operands hlength _ ih =>
    -- As an operand the chain stands in parentheses, whichever connective it is of.
    have hjoined : IsChain connective (Expr.joined connective.mark operands) _ :=
      isChain_joined hlength fun operand hoperand => (ih operand hoperand).1
    have hchain := hjoined.of_chain
    have hgroup := IsOperand.group isLayout_nil hchain isLayout_nil
    rw [Expr.grouped, Expr.chars]
    refine ⟨?_, hchain⟩
    simpa using hgroup

/-- The text of a well-formed expression is a filter that says it. -/
theorem isFilter_chars {expr : Expr} (h : expr.WellFormed) : IsFilter expr.chars expr := by
  have hfilter :=
    IsFilter.intro isLayout_nil (isOperand_grouped_and_isChain_chars h).2 isLayout_nil
  simpa using hfilter

/-! ## Canonical texts are parsed -/

/-- **The image of the parser.** An expression is well-formed exactly if it is parsed from its
canonical text, and exactly if it is parsed from some text. -/
theorem wellFormed_iff_parse (expr : Expr) :
    (expr.WellFormed ↔ parse expr.text = .ok expr) ∧
      (expr.WellFormed ↔ ∃ text, parse text = .ok expr) := by
  have hparse : expr.WellFormed → parse expr.text = .ok expr := by
    intro h
    apply parse_of_isFilter
    rw [Expr.text, String.toList_ofList]
    exact isFilter_chars h
  have hwellFormed : ∀ text, parse text = .ok expr → expr.WellFormed := fun text h =>
    (isFilter_of_parse h).wellFormed
  exact ⟨⟨hparse, hwellFormed _⟩, ⟨fun h => ⟨_, hparse h⟩, fun ⟨text, h⟩ => hwellFormed text h⟩⟩

end FilterScope.Filter
