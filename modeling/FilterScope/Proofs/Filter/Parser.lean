import FilterScope.Filter.Parser
import FilterScope.Proofs.Filter.Lexeme

/-!
# The parser reads the grammar

The parser tries alternatives in order, reads as far as it can and goes back where it cannot; the
grammar says nothing of this. They agree all the same, in two halves.

* **What is parsed is derived** (`isFilter_of_parse`). Every reader hands back a text that its rule
  derives. The proof follows the recursion of the parser.
* **What is derived is parsed** (`parse_of_isFilter`). The proof follows the derivation, and what it
  needs to know at each step is that the greedy reader stops where the derivation does. Two facts
  decide this: a bare word ends, because what may follow is reserved or layout; and a chain ends,
  because the first character behind it that is not layout begins no separator of the chain or of
  one inside it. `Follows` is these two facts, for a given set of beginnings of separators.
-/

namespace FilterScope.Filter

open Text

/-! ## How arguments and operands begin -/

/-- Whether an argument, a list of arguments or an operand can begin with a character. -/
def isOpening (c : Char) : Bool :=
  isUnreserved c || c == '"' || c == '\'' || c == '('

/-- A text that begins as an argument, a list of arguments or an operand does. -/
def Opens (text : List Char) : Prop :=
  ∃ c more, text = c :: more ∧ isOpening c = true

theorem isBlank_of_isOpening {c : Char} (h : isOpening c = true) : isBlank c = false := by
  simp only [isOpening, Bool.or_eq_true, beq_iff_eq] at h
  rcases h with ((hword | rfl) | rfl) | rfl
  · simp only [isUnreserved, Bool.and_eq_true, Bool.not_eq_true'] at hword
    exact hword.1
  all_goals decide

theorem isLayout_of_isOpening {c : Char} (h : isOpening c = true) : isLayout c = false := by
  by_contra hc
  have hblank := isBlank_of_isLayout (by simpa using hc)
  rw [isBlank_of_isOpening h] at hblank
  cases hblank

namespace Opens

variable {text : List Char}

/-- A text that opens still does with more behind it. -/
theorem append (h : Opens text) (rest : List Char) : Opens (text ++ rest) := by
  obtain ⟨c, more, rfl, hc⟩ := h
  exact ⟨c, more ++ rest, rfl, hc⟩

theorem stops_isLayout (h : Opens text) : Stops isLayout text := by
  obtain ⟨c, more, rfl, hc⟩ := h
  exact stops_cons.mpr (isLayout_of_isOpening hc)

theorem stops_equals (h : Opens text) : Stops (· == '=') text := by
  obtain ⟨c, more, rfl, hc⟩ := h
  refine stops_cons.mpr (beq_eq_false_iff_ne.mpr ?_)
  rintro rfl
  exact absurd hc (by decide)

end Opens

/-- A bare word opens. -/
theorem IsWord.opens {text : List Char} (h : IsWord text) : Opens text := by
  obtain ⟨c, more, rfl, hc⟩ := h.exists_cons
  exact ⟨c, more, rfl, by simp [isOpening, hc]⟩

theorem IsValue.opens {text : List Char} {value : String} (h : IsValue text value) :
    Opens text := by
  cases h with
  | word hword => exact hword.opens
  | @quoted quote text value hquote hquoted =>
    exact ⟨quote, text ++ [quote], rfl, by rcases hquote with rfl | rfl <;> decide⟩

theorem IsArguments.opens {text : List Char} {values : List String} (h : IsArguments text values) :
    Opens text := by
  cases h with
  | single hvalue => exact hvalue.opens
  | list => exact ⟨'(', _, rfl, by decide⟩

theorem IsComparison.opens {text : List Char} {comparison : Comparison}
    (h : IsComparison text comparison) : Opens text := by
  obtain ⟨hselector, -, -, -, -, -⟩ := h
  simp only [List.append_assoc]
  exact hselector.opens.append _

mutual

theorem IsOperand.opens {connective : Connective} {text : List Char} {expr : Expr} :
    IsOperand connective text expr → Opens text
  | .chain hchain => hchain.opens
  | .comparison hcomparison => hcomparison.opens
  | .group _ _ _ => ⟨'(', _, rfl, by decide⟩

theorem IsChain.opens {connective : Connective} {text : List Char} {expr : Expr} :
    IsChain connective text expr → Opens text
  | .intro hfirst _ => hfirst.opens.append _

end

/-! ## Lists of arguments -/

/-- What is read as further arguments are such, if only none. -/
theorem isMoreValues_moreArguments (cs : List Char) :
    ∃ text, cs = text ++ (moreArguments cs).rest ∧ IsMoreValues text (moreArguments cs).value := by
  fun_induction moreArguments cs with
  | case1 cs hcomma => exact ⟨[], rfl, .nil⟩
  -- A comma with no argument behind it is given back.
  | case2 cs comma hcomma hfirst => exact ⟨[], rfl, .nil⟩
  | case3 cs comma hcomma first hfirst more ih =>
    obtain ⟨before, after, hcs, hbefore, hafter⟩ := eq_append_of_mark? hcomma
    obtain ⟨text, htext, hvalue⟩ := isValue_of_argument? hfirst
    obtain ⟨moreText, hmoreText, hmore⟩ := ih
    refine ⟨before ++ ',' :: after ++ text ++ moreText, ?_, .cons hbefore hafter hvalue hmore⟩
    rw [List.append_assoc, List.append_assoc]
    exact hcs.trans (congrArg _ (htext.trans (congrArg _ hmoreText)))

/-- A bare word ends in front of further arguments. -/
theorem IsMoreValues.stops_isUnreserved {text rest : List Char} {values : List String}
    (h : IsMoreValues text values) (hrest : Stops isUnreserved rest) :
    Stops isUnreserved (text ++ rest) := by
  cases h with
  | nil => exact hrest
  | cons hbefore _ _ _ =>
    simp only [List.append_assoc]
    exact stops_isUnreserved_append hbefore (stops_cons.mpr (by decide))

/-- Further arguments are read until no comma follows. -/
theorem reads_moreArguments {text rest : List Char} {values : List String}
    (h : IsMoreValues text values) (hrest : Stops isUnreserved rest)
    (hcomma : Stops (· == ',') (dropLayout rest)) :
    Reads (some (moreArguments (text ++ rest))) values rest := by
  induction h with
  | nil =>
    rw [List.nil_append, moreArguments, mark?_eq_none hcomma]
    exact .of_eq_some rfl
  | @cons before after text more value values hbefore hafter hvalue hmore ih =>
    have hvisible : Stops isLayout (text ++ (more ++ rest)) :=
      (hvalue.opens.append _).stops_isLayout
    have hmark : isLayout ',' = false := by decide
    obtain ⟨_, hread⟩ := reads_mark? hbefore hmark hafter hvisible
    obtain ⟨_, hfirst⟩ := reads_argument? hvalue (hmore.stops_isUnreserved hrest)
    rw [List.append_assoc, List.append_assoc, moreArguments, hread]
    simp only [hfirst]
    obtain ⟨hvalues, hleft⟩ := Reads.some_iff.mp ih
    exact Reads.some_iff.mpr ⟨congrArg (value :: ·) hvalues, hleft⟩

/-- A closing parenthesis is read behind layout. -/
theorem reads_close? {cs after rest : List Char} (h : cs = after ++ ')' :: rest)
    (hafter : IsLayout after) : Reads (char? ')' (dropLayout cs)) () rest := by
  rw [h, dropLayout_append_of_stops hafter (stops_cons.mpr (by decide))]
  exact reads_char? ')' rest

/-- What is read as a list of arguments is one. -/
theorem isArguments_of_argumentList? {cs : List Char} {r : Reading (List String) cs.length}
    (h : argumentList? cs = some r) :
    ∃ text, cs = text ++ r.rest ∧ IsArguments text r.value := by
  unfold argumentList? at h
  split at h
  · cases h
  · next opening hopening =>
    split at h
    · cases h
    · next first hfirst =>
      obtain ⟨closing, hclosing, rfl⟩ := Option.map_eq_some_iff.mp h
      obtain ⟨paren, hparen, rfl⟩ := Option.map_eq_some_iff.mp hopening
      obtain ⟨before, hbeforeEq, hbefore⟩ := exists_isLayout_append paren.rest
      obtain ⟨text, htext, hvalue⟩ := isValue_of_argument? hfirst
      obtain ⟨more, hmoreEq, hmore⟩ := isMoreValues_moreArguments first.rest
      obtain ⟨after, hafterEq, hafter⟩ := exists_isLayout_append (moreArguments first.rest).rest
      -- The pieces are put together from the last one backwards.
      refine ⟨'(' :: before ++ text ++ more ++ after ++ [')'], ?_,
        .list hbefore hvalue hmore hafter⟩
      have hlast := hafterEq.trans (congrArg (after ++ ·) (eq_cons_of_char? hclosing))
      have hlist := htext.trans (congrArg (text ++ ·) (hmoreEq.trans (congrArg (more ++ ·) hlast)))
      have hinside := hbeforeEq.trans (congrArg (before ++ ·) hlist)
      refine (eq_cons_of_char? hparen).trans ((congrArg ('(' :: ·) hinside).trans ?_)
      simp only [List.cons_append, List.append_assoc, List.nil_append]
      rfl

/-- A single argument is not read as a list. -/
theorem argumentList?_eq_none {text : List Char} {value : String} (h : IsValue text value)
    (rest : List Char) : argumentList? (text ++ rest) = none := by
  obtain ⟨c, more, rfl, hc⟩ : ∃ c more, text = c :: more ∧ c ≠ '(' := by
    cases h with
    | word hword =>
      obtain ⟨c, more, rfl, hc⟩ := hword.exists_cons
      refine ⟨c, more, rfl, ?_⟩
      rintro rfl
      exact absurd hc (by decide)
    | @quoted quote text value hquote hquoted =>
      exact ⟨quote, text ++ [quote], rfl, by rcases hquote with rfl | rfl <;> decide⟩
  rw [List.cons_append, argumentList?, char?_cons_of_ne hc]
  rfl

/-- What is read as arguments are such. -/
theorem isArguments_of_arguments? {cs : List Char} {r : Reading (List String) cs.length}
    (h : arguments? cs = some r) : ∃ text, cs = text ++ r.rest ∧ IsArguments text r.value := by
  rw [arguments?, Option.orElse_eq_orElse, Option.orElse_eq_or, Option.or_eq_some_iff] at h
  rcases h with hlist | ⟨-, hsingle⟩
  · exact isArguments_of_argumentList? hlist
  · obtain ⟨s, hs, rfl⟩ := Option.map_eq_some_iff.mp hsingle
    obtain ⟨text, htext, hvalue⟩ := isValue_of_argument? hs
    exact ⟨text, htext, .single hvalue⟩

/-- A list of arguments ends with its closing parenthesis, whatever stands behind it. -/
theorem reads_arguments?_of_list {before text more after : List Char} {value : String}
    {values : List String} (hbefore : IsLayout before) (hvalue : IsValue text value)
    (hmore : IsMoreValues more values) (hafter : IsLayout after) (rest : List Char) :
    Reads (arguments? ('(' :: before ++ text ++ more ++ after ++ [')'] ++ rest)) (value :: values)
      rest := by
  have hends : Stops isUnreserved (after ++ ')' :: rest) :=
    stops_isUnreserved_append hafter (stops_cons.mpr (by decide))
  have hcomma : Stops (· == ',') (dropLayout (after ++ ')' :: rest)) := by
    rw [dropLayout_append_of_stops hafter (stops_cons.mpr (by decide))]
    exact stops_cons.mpr (by decide)
  have hinside : dropLayout (before ++ (text ++ (more ++ (after ++ ')' :: rest)))) =
      text ++ (more ++ (after ++ ')' :: rest)) :=
    dropLayout_append_of_stops hbefore (hvalue.opens.append _).stops_isLayout
  obtain ⟨_, hopening⟩ := (reads_char? '(' _).thenLayout hinside
  obtain ⟨_, hfirst⟩ := reads_argument? hvalue (hmore.stops_isUnreserved hends)
  obtain ⟨hvalues, hleft⟩ := Reads.some_iff.mp (reads_moreArguments hmore hends hcomma)
  have hclose := reads_close? hleft hafter
  have htext : '(' :: before ++ text ++ more ++ after ++ [')'] ++ rest =
      '(' :: (before ++ (text ++ (more ++ (after ++ ')' :: rest)))) := by simp
  rw [htext, arguments?, argumentList?, hopening]
  simp only [hfirst]
  exact (hclose.map fun _ => ⟨congrArg (value :: ·) hvalues, rfl⟩).orElse _

/-- Arguments are read whole, up to where bare words stop. -/
theorem reads_arguments? {text rest : List Char} {values : List String}
    (h : IsArguments text values) (hrest : Stops isUnreserved rest) :
    Reads (arguments? (text ++ rest)) values rest := by
  cases h with
  | @single text value hvalue =>
    rw [arguments?, argumentList?_eq_none hvalue]
    exact (reads_argument? hvalue hrest).map fun _ => ⟨rfl, rfl⟩
  | list hbefore hvalue hmore hafter =>
    exact reads_arguments?_of_list hbefore hvalue hmore hafter rest

/-! ## Comparisons -/

/-- What is read as a comparison is one. -/
theorem isComparison_of_comparison {cs : List Char} {r : Reading Expr cs.length}
    (h : comparison cs = .ok r) :
    ∃ text c, cs = text ++ r.rest ∧ IsComparison text c ∧ r.value = .comparison c := by
  unfold comparison at h
  split at h
  · cases h
  · next selector hselector =>
    split at h
    · cases h
    · next operator hoperator =>
      split at h
      · cases h
      · next arguments harguments =>
        split at h
        · cases h
        · next hcount =>
          obtain rfl := Except.ok.inj h
          obtain ⟨word, hword, rfl⟩ := Option.map_eq_some_iff.mp hselector
          obtain ⟨symbol, hsymbol, rfl⟩ := Option.map_eq_some_iff.mp hoperator
          obtain ⟨selectorText, hcs, hselectorWord, hselectorValue⟩ := isWord_of_word? hword
          obtain ⟨before, hbeforeEq, hbefore⟩ := exists_isLayout_append word.rest
          obtain ⟨spelling, hspelling, hspellingEq, hmeaning⟩ :=
            exists_spelling_of_operator? hsymbol
          obtain ⟨after, hafterEq, hafter⟩ := exists_isLayout_append symbol.rest
          obtain ⟨argumentsText, hargumentsEq, hvalues⟩ := isArguments_of_arguments? harguments
          have hlength : spelling.operator.takesMany = true ∨ arguments.value.length = 1 := by
            by_contra hno
            rw [← hmeaning] at hno
            exact hcount (by simpa [Reading.thenLayout] using hno)
          refine ⟨_, _, ?_, .intro hselectorWord hbefore hspelling hafter hvalues hlength, ?_⟩
          · have hlast := hafterEq.trans (congrArg (after ++ ·) hargumentsEq)
            have hright := hspellingEq.trans (congrArg (spelling.text ++ ·) hlast)
            have hleft := hbeforeEq.trans (congrArg (before ++ ·) hright)
            refine hcs.trans ((congrArg (selectorText ++ ·) hleft).trans ?_)
            simp only [List.append_assoc]
            rfl
          · rw [← hselectorValue, ← hmeaning]
            rfl

/-- A bare word ends in front of an operator. -/
theorem stops_isUnreserved_spelling {s : Spelling} (h : s ∈ Spelling.all) (rest : List Char) :
    Stops isUnreserved (s.text ++ rest) := by
  have hlead : ∀ s ∈ Spelling.all, isUnreserved s.lead = false := by decide
  exact stops_cons.mpr (hlead s h)

/-- Layout ends in front of an operator. -/
theorem stops_isLayout_spelling {s : Spelling} (h : s ∈ Spelling.all) (rest : List Char) :
    Stops isLayout (s.text ++ rest) := by
  have hlead : ∀ s ∈ Spelling.all, isLayout s.lead = false := by decide
  exact stops_cons.mpr (hlead s h)

/-- Layout and then an argument do not turn an operator in front of them into another one. -/
theorem stops_equals_append {layout text : List Char} (h : IsLayout layout) (htext : Opens text) :
    Stops (· == '=') (layout ++ text) := by
  cases layout with
  | nil => exact htext.stops_equals
  | cons c cs =>
    refine stops_cons.mpr (beq_eq_false_iff_ne.mpr ?_)
    rintro rfl
    exact absurd (h '=' List.mem_cons_self) (by decide)

/-- In front of its arguments a comparison is read as it is derived, whatever text they are read
from. -/
theorem reads_comparison_of_arguments? {selector before after cs rest : List Char}
    {spelling : Spelling} {values : List String} (hselector : IsWord selector)
    (hbefore : IsLayout before) (hspelling : spelling ∈ Spelling.all) (hafter : IsLayout after)
    (hopens : Opens cs) (harguments : Reads (arguments? cs) values rest)
    (hcount : spelling.operator.takesMany = true ∨ values.length = 1) :
    Reads (comparison (selector ++ (before ++ (spelling.text ++ (after ++ cs))))).toOption
      (.comparison ⟨⟨String.ofList selector⟩, spelling.operator, values⟩) rest := by
  -- Each part is read up to the next one, which begins with a character that cannot belong to it.
  have hends : Stops isUnreserved (before ++ (spelling.text ++ (after ++ cs))) :=
    stops_isUnreserved_append hbefore (stops_isUnreserved_spelling hspelling _)
  have hbeforeOperator := dropLayout_append_of_stops hbefore
    (stops_isLayout_spelling hspelling (after ++ cs))
  have hbeforeArguments := dropLayout_append_of_stops hafter hopens.stops_isLayout
  obtain ⟨_, hword⟩ := (reads_word? hselector hends).thenLayout hbeforeOperator
  obtain ⟨_, hoperator⟩ :=
    (reads_operator? hspelling (stops_equals_append hafter hopens)).thenLayout hbeforeArguments
  obtain ⟨_, harguments⟩ := harguments
  have hone : ¬ (!spelling.operator.takesMany && values.length != 1) = true := by
    rcases hcount with hmany | hone
    · simp [hmany]
    · simp [hone]
  rw [comparison, hword]
  simp only [hoperator, harguments, if_neg hone]
  exact .of_eq_some rfl

/-- A comparison is read whole, up to where bare words stop. -/
theorem reads_comparison {text rest : List Char} {c : Comparison} (h : IsComparison text c)
    (hrest : Stops isUnreserved rest) :
    Reads (comparison (text ++ rest)).toOption (.comparison c) rest := by
  obtain ⟨hselector, hbefore, hspelling, hafter, harguments, hcount⟩ := h
  rw [List.append_assoc, List.append_assoc, List.append_assoc, List.append_assoc]
  exact reads_comparison_of_arguments? hselector hbefore hspelling hafter
    (harguments.opens.append rest) (reads_arguments? harguments hrest) hcount

/-! ## What is parsed is derived -/

mutual

/-- What is read as a chain is one. -/
theorem isChain_of_chain {connective : Connective} {cs : List Char} {r : Reading Expr cs.length}
    (h : chain connective cs = .ok r) :
    ∃ text, cs = text ++ r.rest ∧ IsChain connective text r.value := by
  rw [chain] at h
  split at h
  · cases h
  · next first hfirst =>
    obtain rfl := Except.ok.inj h
    have hshorter := first.bound
    obtain ⟨text, htext, hoperand⟩ := isOperand_of_operand hfirst
    obtain ⟨more, hmoreEq, hmore⟩ := isMore_operands connective first.rest
    refine ⟨text ++ more, ?_, .intro hoperand hmore⟩
    rw [List.append_assoc]
    exact htext.trans (congrArg (text ++ ·) hmoreEq)
termination_by (cs.length, match connective with | .or => 5 | .and => 3)
decreasing_by
  · exact Prod.Lex.right _ (by cases connective <;> simp)
  · exact Prod.Lex.left _ _ (by assumption)

/-- What is read as the continuation of a chain is one. -/
theorem isMore_operands (connective : Connective) (cs : List Char) :
    ∃ text, cs = text ++ (operands connective cs).rest ∧
      IsMore connective text (operands connective cs).value := by
  rw [operands]
  split
  · exact ⟨[], rfl, .nil⟩
  · next separator hseparator =>
    split
    -- A separator with no operand behind it is given back.
    · exact ⟨[], rfl, .nil⟩
    · next first hfirst =>
      have hshorter := separator.bound
      have hshortest := Nat.lt_trans first.bound hshorter
      obtain ⟨separatorText, hcs, hsep⟩ := isSeparator_of_separator? hseparator
      obtain ⟨text, htext, hoperand⟩ := isOperand_of_operand hfirst
      obtain ⟨more, hmoreEq, hmore⟩ := isMore_operands connective first.rest
      refine ⟨separatorText ++ text ++ more, ?_, .cons hsep hoperand hmore⟩
      rw [List.append_assoc, List.append_assoc]
      exact hcs.trans (congrArg _ (htext.trans (congrArg _ hmoreEq)))
termination_by (cs.length, 0)
decreasing_by
  · exact Prod.Lex.left _ _ (by assumption)
  · exact Prod.Lex.left _ _ (by assumption)

/-- What is read as an operand is one. -/
theorem isOperand_of_operand {connective : Connective} {cs : List Char}
    {r : Reading Expr cs.length} (h : operand connective cs = .ok r) :
    ∃ text, cs = text ++ r.rest ∧ IsOperand connective text r.value := by
  cases connective with
  | or =>
    rw [operand] at h
    obtain ⟨text, htext, hchain⟩ := isChain_of_chain h
    exact ⟨text, htext, .chain hchain⟩
  | and =>
    rw [operand] at h
    exact isOperand_of_term h
termination_by (cs.length, match connective with | .or => 4 | .and => 2)

/-- What is read as a term is an operand of `and`. -/
theorem isOperand_of_term {cs : List Char} {r : Reading Expr cs.length} (h : term cs = .ok r) :
    ∃ text, cs = text ++ r.rest ∧ IsOperand .and text r.value := by
  rw [term] at h
  split at h
  · next group hgroup =>
    obtain rfl := Except.ok.inj h
    exact isOperand_of_group? hgroup
  · obtain ⟨text, c, htext, hcomparison, hvalue⟩ := isComparison_of_comparison h
    exact ⟨text, htext, hvalue ▸ .comparison hcomparison⟩
termination_by (cs.length, 1)

/-- What is read as a group is an operand of `and`. -/
theorem isOperand_of_group? {cs : List Char} {r : Reading Expr cs.length}
    (h : group? cs = some r) : ∃ text, cs = text ++ r.rest ∧ IsOperand .and text r.value := by
  rw [group?] at h
  split at h
  · cases h
  · next opening hopening =>
    split at h
    · cases h
    · next inside hinside =>
      have hshorter := opening.bound
      obtain ⟨closing, hclosing, rfl⟩ := Option.map_eq_some_iff.mp h
      obtain ⟨paren, hparen, rfl⟩ := Option.map_eq_some_iff.mp hopening
      obtain ⟨before, hbeforeEq, hbefore⟩ := exists_isLayout_append paren.rest
      obtain ⟨text, htext, hchain⟩ := isChain_of_chain hinside
      obtain ⟨after, hafterEq, hafter⟩ := exists_isLayout_append inside.rest
      refine ⟨'(' :: before ++ text ++ after ++ [')'], ?_, .group hbefore hchain hafter⟩
      have hlast := hafterEq.trans (congrArg (after ++ ·) (eq_cons_of_char? hclosing))
      have hchainEq := htext.trans (congrArg (text ++ ·) hlast)
      have hleft := hbeforeEq.trans (congrArg (before ++ ·) hchainEq)
      refine (eq_cons_of_char? hparen).trans ((congrArg ('(' :: ·) hleft).trans ?_)
      simp only [List.cons_append, List.append_assoc, List.nil_append]
      rfl
termination_by (cs.length, 0)
decreasing_by exact Prod.Lex.left _ _ (by assumption)

end

/-! ## Where a chain ends -/

/-- Whether a chain of a connective could go on behind a character: it begins a separator of the
chain, or of an operand of it that is a chain as well. -/
def Connective.continues : Connective → Char → Bool
  | .and, c => Connective.and.leads c
  | .or, c => Connective.and.leads c || Connective.or.leads c

/-- Whether an operand of a connective could go on behind a character. -/
def Connective.continuesOperand : Connective → Char → Bool
  | .and, _ => false
  | .or, c => Connective.and.leads c

/-- What may follow a text that is read greedily: it ends a bare word, and the first character that
is not layout does not go on with it. -/
structure Follows (continues : Char → Bool) (rest : List Char) : Prop where
  /-- a bare word in front ends -/
  ends : Stops isUnreserved rest
  /-- no separator comes -/
  stops : Stops continues (dropLayout rest)

namespace Follows

variable {connective : Connective} {rest : List Char}

theorem mono {continues continues' : Char → Bool} (h : Follows continues rest)
    (hle : ∀ c, continues c = false → continues' c = false) : Follows continues' rest :=
  ⟨h.ends, fun c hc => hle c (h.stops c hc)⟩

/-- What may follow a chain may follow its last operand. -/
theorem continuesOperand (h : Follows connective.continues rest) :
    Follows connective.continuesOperand rest := by
  refine h.mono fun c hc => ?_
  cases connective with
  | and => rfl
  | or => exact (Bool.or_eq_false_iff.mp hc).1

/-- No separator is read from what may follow a chain. -/
theorem separator?_eq_none (h : Follows connective.continues rest) :
    separator? connective rest = none := by
  refine Filter.separator?_eq_none fun c hc => ?_
  have hcontinues := h.stops c hc
  cases connective with
  | and => exact hcontinues
  | or => exact (Bool.or_eq_false_iff.mp hcontinues).2

end Follows

/-- The end of a text and a closing parenthesis end every chain. -/
theorem follows_layout (connective : Connective) {after : List Char} (hafter : IsLayout after) :
    Follows connective.continues after := by
  constructor
  · simpa using stops_isUnreserved_append hafter (stops_nil _)
  · rw [dropLayout_eq_nil hafter]
    exact stops_nil _

/-- A closing parenthesis may follow any chain. -/
theorem follows_close (connective : Connective) {after : List Char} (hafter : IsLayout after)
    (rest : List Char) : Follows connective.continues (after ++ ')' :: rest) := by
  constructor
  · exact stops_isUnreserved_append hafter (stops_cons.mpr (by decide))
  · rw [dropLayout_append_of_stops hafter (stops_cons.mpr (by decide))]
    cases connective <;> exact stops_cons.mpr (by decide)

/-- A separator ends the operand in front of it. -/
theorem IsSeparator.follows {connective : Connective} {separator : List Char}
    (h : IsSeparator connective separator) (rest : List Char) :
    Follows connective.continuesOperand (separator ++ rest) := by
  constructor
  · cases h with
    | @mark before after hbefore hafter =>
      rw [List.append_assoc]
      refine stops_isUnreserved_append hbefore (stops_cons.mpr ?_)
      cases connective <;> decide
    | @keyword before word after hbefore hne hword hafter hne' =>
      obtain ⟨c, more, rfl⟩ := List.exists_cons_of_ne_nil hne
      exact stops_cons.mpr (isUnreserved_of_isLayout (hbefore c List.mem_cons_self))
  · obtain ⟨before, c, more, rfl, hbefore, hc⟩ := h.leads
    have hlayout := Connective.not_isLayout_of_leads hc
    rw [List.append_assoc, List.cons_append,
      dropLayout_append_of_stops hbefore (stops_cons.mpr hlayout)]
    refine stops_cons.mpr ?_
    cases connective with
    | and => rfl
    | or => exact Connective.not_leads_and_of_leads_or hc

/-- The continuation of a chain may follow an operand of it. -/
theorem IsMore.follows {connective : Connective} {text rest : List Char} {exprs : List Expr}
    (h : IsMore connective text exprs) (hrest : Follows connective.continues rest) :
    Follows connective.continuesOperand (text ++ rest) := by
  cases h with
  | nil => exact hrest.continuesOperand
  | cons hseparator _ _ =>
    rw [List.append_assoc, List.append_assoc]
    exact hseparator.follows _

/-! ## What is derived is parsed -/

/-- A comparison is not read as a group. -/
theorem group?_eq_none {text : List Char} {c : Comparison} (h : IsComparison text c)
    (rest : List Char) : group? (text ++ rest) = none := by
  obtain ⟨hselector, -, -, -, -, -⟩ := h
  obtain ⟨d, more, rfl, hd⟩ := hselector.exists_cons
  have hparen : d ≠ '(' := by
    rintro rfl
    exact absurd hd (by decide)
  simp only [List.cons_append]
  rw [group?, char?_cons_of_ne hparen]
  rfl

/-- A group is read through its closing parenthesis, if the chain inside is read up to there. -/
theorem reads_operand_of_group {before text after rest : List Char} {expr : Expr}
    (hbefore : IsLayout before) (hopens : Opens text) (hafter : IsLayout after)
    (hread : Reads (chain .or (text ++ (after ++ ')' :: rest))).toOption expr
      (after ++ ')' :: rest)) :
    Reads (operand .and ('(' :: before ++ text ++ after ++ [')'] ++ rest)).toOption expr rest := by
  have hinside : dropLayout (before ++ (text ++ (after ++ ')' :: rest))) =
      text ++ (after ++ ')' :: rest) :=
    dropLayout_append_of_stops hbefore (hopens.append _).stops_isLayout
  obtain ⟨_, hopening⟩ := (reads_char? '(' _).thenLayout hinside
  obtain ⟨_, hread⟩ := hread.exists_ok
  have hclose : Reads (char? ')' (dropLayout (after ++ ')' :: rest))) () rest :=
    reads_close? rfl hafter
  have htext : '(' :: before ++ text ++ after ++ [')'] ++ rest =
      '(' :: (before ++ (text ++ (after ++ ')' :: rest))) := by simp
  have hgroup :
      Reads (group? ('(' :: (before ++ (text ++ (after ++ ')' :: rest))))) expr rest := by
    rw [group?, hopening]
    simp only [hread]
    exact hclose.map fun _ => ⟨rfl, rfl⟩
  obtain ⟨_, hgroup⟩ := hgroup
  rw [htext, operand, term, hgroup]
  exact .of_eq_some rfl

/-- A chain is its first operand and those that are read behind it. -/
theorem reads_chain_of_operands {connective : Connective} {cs rest left : List Char} {first : Expr}
    {exprs : List Expr} (hfirst : Reads (operand connective cs).toOption first rest)
    (hmore : Reads (some (operands connective rest)) exprs left) :
    Reads (chain connective cs).toOption (.join connective first exprs) left := by
  obtain ⟨_, hfirst⟩ := hfirst.exists_ok
  obtain ⟨hexprs, hleft⟩ := Reads.some_iff.mp hmore
  rw [chain, hfirst]
  exact Reads.some_iff.mpr ⟨congrArg (Expr.join connective first) hexprs, hleft⟩

/-- Behind a separator comes an operand, and then those that are read behind it. -/
theorem reads_operands_of_operand {connective : Connective} {cs after rest left : List Char}
    {first : Expr} {exprs : List Expr} (hseparator : Reads (separator? connective cs) () after)
    (hfirst : Reads (operand connective after).toOption first rest)
    (hmore : Reads (some (operands connective rest)) exprs left) :
    Reads (some (operands connective cs)) (first :: exprs) left := by
  obtain ⟨_, hseparator⟩ := hseparator
  obtain ⟨_, hfirst⟩ := hfirst.exists_ok
  obtain ⟨hexprs, hleft⟩ := Reads.some_iff.mp hmore
  rw [operands, hseparator]
  simp only [hfirst]
  exact Reads.some_iff.mpr ⟨congrArg (first :: ·) hexprs, hleft⟩

mutual

theorem reads_operand {connective : Connective} {text rest : List Char} {expr : Expr} :
    IsOperand connective text expr → Follows connective.continuesOperand rest →
      Reads (operand connective (text ++ rest)).toOption expr rest
  | .chain hchain, hrest => by
    rw [operand]
    exact reads_chain hchain hrest
  | .comparison hcomparison, hrest => by
    -- A group is tried first, and is not there: a selector begins with no parenthesis.
    rw [operand, term, group?_eq_none hcomparison]
    exact reads_comparison hcomparison hrest.ends
  | .group hbefore hchain hafter, _ =>
    -- Whatever follows the group, the closing parenthesis ends the chain inside.
    reads_operand_of_group hbefore hchain.opens hafter
      (reads_chain hchain (follows_close .or hafter _))

theorem reads_chain {connective : Connective} {text rest : List Char} {expr : Expr} :
    IsChain connective text expr → Follows connective.continues rest →
      Reads (chain connective (text ++ rest)).toOption expr rest
  | .intro hfirst hmore, hrest => by
    -- The first operand ends in front of the next separator, or where the chain does.
    rw [List.append_assoc]
    exact reads_chain_of_operands (reads_operand hfirst (hmore.follows hrest))
      (reads_operands hmore hrest)

theorem reads_operands {connective : Connective} {text rest : List Char} {exprs : List Expr} :
    IsMore connective text exprs → Follows connective.continues rest →
      Reads (some (operands connective (text ++ rest))) exprs rest
  | .nil, hrest => by
    rw [List.nil_append, operands, hrest.separator?_eq_none]
    exact .of_eq_some rfl
  | .cons hseparator hfirst hmore, hrest => by
    rw [List.append_assoc, List.append_assoc]
    exact reads_operands_of_operand
      (reads_separator? hseparator (hfirst.opens.append _).stops_isLayout)
      (reads_operand hfirst (hmore.follows hrest)) (reads_operands hmore hrest)

end

/-! ## Whole filters -/

/-- What a chain is read from, with the layout around it, is a filter. -/
theorem isFilter_of_chain {cs : List Char} {r : Reading Expr (dropLayout cs).length}
    (h : chain .or (dropLayout cs) = .ok r) :
    ∃ text, cs = text ++ dropLayout r.rest ∧ IsFilter text r.value := by
  obtain ⟨before, hbeforeEq, hbefore⟩ := exists_isLayout_append cs
  obtain ⟨text, htext, hchain⟩ := isChain_of_chain h
  obtain ⟨after, hafterEq, hafter⟩ := exists_isLayout_append r.rest
  refine ⟨before ++ text ++ after, ?_, .intro hbefore hchain hafter⟩
  rw [List.append_assoc, List.append_assoc, ← hafterEq, ← htext]
  exact hbeforeEq

/-- What is read as a filter is one. -/
theorem isFilter_of_parse {text : String} {expr : Expr} (h : parse text = .ok expr) :
    IsFilter text.toList expr := by
  simp only [parse] at h
  split at h
  · cases h
  · next filter hfilter =>
    split at h
    · next hend =>
      obtain rfl := Except.ok.inj h
      obtain ⟨cs, hcs, hderived⟩ := isFilter_of_chain hfilter
      rw [hend, List.append_nil] at hcs
      rwa [← hcs] at hderived
    · cases h

theorem parse_of_reads_chain {text : String} {expr : Expr} {rest : List Char}
    (h : Reads (chain .or (dropLayout text.toList)).toOption expr rest)
    (hrest : dropLayout rest = []) : parse text = .ok expr := by
  obtain ⟨_, hread⟩ := h.exists_ok
  rw [parse, hread]
  simp only [hrest]

/-- What is left behind a chain and its layout is unexpected. -/
theorem parse_eq_error_of_reads_chain {text : String} {expr : Expr} {rest : List Char}
    (h : Reads (chain .or (dropLayout text.toList)).toOption expr rest)
    (hrest : dropLayout rest ≠ []) :
    parse text =
      .error ⟨byteLength text.toList - byteLength (dropLayout rest), .unexpectedInput⟩ := by
  obtain ⟨_, hread⟩ := h.exists_ok
  rw [parse, hread]
  dsimp only
  split
  · next hend => exact absurd hend hrest
  · rfl

/-- A filter is read whole. -/
theorem parse_of_isFilter {text : String} {expr : Expr} (h : IsFilter text.toList expr) :
    parse text = .ok expr := by
  generalize hcs : text.toList = cs at h
  obtain @⟨before, chainText, after, expr, hbefore, hchain, hafter⟩ := h
  have hstart : dropLayout text.toList = chainText ++ after := by
    rw [hcs, List.append_assoc]
    exact dropLayout_append_of_stops hbefore (hchain.opens.append _).stops_isLayout
  refine parse_of_reads_chain ?_ (dropLayout_eq_nil hafter)
  rw [hstart]
  exact reads_chain hchain (follows_layout .or hafter)

/-- **The parser is the grammar.** A text is parsed as a tree exactly if the grammar derives the
tree from it; and it derives at most one. -/
theorem parse_eq_ok_iff_isFilter (text : String) (expr : Expr) :
    (parse text = .ok expr ↔ IsFilter text.toList expr) ∧
      ∀ other, IsFilter text.toList expr → IsFilter text.toList other → expr = other := by
  refine ⟨⟨isFilter_of_parse, parse_of_isFilter⟩, fun other h h' => ?_⟩
  have hparse := (parse_of_isFilter h).symm.trans (parse_of_isFilter h')
  exact Except.ok.inj hparse

end FilterScope.Filter
