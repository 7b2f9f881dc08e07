import FilterScope.Proofs.Filter.Parser

/-!
# Where reading stops

A text that is no filter is reported with the place where reading stopped. There are two ways of it.

* **Nothing is read.** A chain fails only as the comparison at its start does
  (`comparison_eq_error_of_chain`), and then the fault has the cause and the place of that failure.
* **Something is left.** A chain was read, and behind it and its layout stands what is reported as
  unexpected. What was read is itself a filter.

In the second case no longer part of the text is a filter either. The reason is that a reader which
has begun to read what a rule derives does not stop before the end of it, whatever stands behind
(`Covers`): it may only be led further. Inside a derivation this is no new fact, since what follows
there is known, and the text is read up to it exactly; it is the last word, the last comparison and
the last operand that may be followed by anything.
-/

namespace FilterScope.Filter

open Text

/-! ## Readers that get through a text -/

/-- A reader succeeded, and what it left is no longer than this text. -/
def Covers {α : Type} {n : Nat} (result : Option (Reading α n)) (rest : List Char) : Prop :=
  ∃ value left, Reads result value left ∧ left.length ≤ rest.length

/-- What is read whole is covered. -/
theorem Covers.of_reads {α : Type} {n : Nat} {result : Option (Reading α n)} {value : α}
    {rest : List Char} (h : Reads result value rest) : Covers result rest :=
  ⟨value, rest, h, Nat.le_refl _⟩

/-- A bare word is covered, whatever stands behind it. -/
theorem covers_word? {text : List Char} (h : IsWord text) (rest : List Char) :
    Covers (word? (text ++ rest)) rest := by
  obtain ⟨c, more, rfl, hc⟩ := h.exists_cons
  have hmore : ∀ d ∈ more, isUnreserved d = true := fun d hd => h.2 d (List.mem_cons_of_mem _ hd)
  have hleft : ((more ++ rest).dropWhile isUnreserved).length ≤ rest.length := by
    rw [List.dropWhile_append_of_pos hmore]
    exact (List.dropWhile_suffix _).length_le
  rw [List.cons_append, word?, if_pos hc]
  exact ⟨_, _, .of_eq_some rfl, hleft⟩

theorem covers_argument? {text : List Char} {value : String} (h : IsValue text value)
    (rest : List Char) : Covers (argument? (text ++ rest)) rest := by
  cases h with
  | word hword =>
    rw [hword.argument?_eq]
    exact covers_word? hword rest
  | quoted hquote hquoted => exact .of_reads (reads_argument?_of_isQuoted hquote hquoted rest)

/-- A last word may be read on into another one, but its argument remains one argument. -/
theorem covers_arguments? {text : List Char} {values : List String} (h : IsArguments text values)
    (rest : List Char) :
    ∃ values' left, Reads (arguments? (text ++ rest)) values' left ∧
      values'.length = values.length ∧ left.length ≤ rest.length := by
  cases h with
  | @single text value hvalue =>
    obtain ⟨value', left, hread, hleft⟩ := covers_argument? hvalue rest
    refine ⟨[value'], left, ?_, rfl, hleft⟩
    rw [arguments?, argumentList?_eq_none hvalue]
    exact hread.map fun _ => ⟨rfl, rfl⟩
  | list hbefore hvalue hmore hafter =>
    exact ⟨_, rest, reads_arguments?_of_list hbefore hvalue hmore hafter rest, rfl, Nat.le_refl _⟩

theorem covers_comparison {text : List Char} {c : Comparison} (h : IsComparison text c)
    (rest : List Char) : Covers (comparison (text ++ rest)).toOption rest := by
  obtain ⟨hselector, hbefore, hspelling, hafter, harguments, hcount⟩ := h
  obtain ⟨values, left, hread, hlength, hleft⟩ := covers_arguments? harguments rest
  rw [List.append_assoc, List.append_assoc, List.append_assoc, List.append_assoc]
  rw [← hlength] at hcount
  exact ⟨_, left, reads_comparison_of_arguments? hselector hbefore hspelling hafter
    (harguments.opens.append rest) hread hcount, hleft⟩

/-! ## Chains that get through a text -/

/-- The continuation of a chain leaves no more than was there. -/
theorem length_operands_le (connective : Connective) (cs : List Char) :
    (operands connective cs).rest.length ≤ cs.length := by
  obtain ⟨text, hcs, _⟩ := isMore_operands connective cs
  have hsuffix : (operands connective cs).rest <:+ cs := ⟨text, hcs.symm⟩
  exact hsuffix.length_le

/-- An operand and those after it are covered if the operand is covered as the last one and those
after it are. -/
theorem covers_operand_append {connective : Connective} {text more : List Char} {first : Expr}
    {exprs : List Expr} (hfirst : IsOperand connective text first)
    (hmore : IsMore connective more exprs) (rest : List Char)
    (hlast : Covers (operand connective (text ++ rest)).toOption rest)
    (hrest : (operands connective (more ++ rest)).rest.length ≤ rest.length) :
    ∃ value left, Reads (operand connective (text ++ (more ++ rest))).toOption value left ∧
      (operands connective left).rest.length ≤ rest.length := by
  cases hmore with
  | nil =>
    obtain ⟨value, left, hread, hleft⟩ := hlast
    exact ⟨value, left, hread, (length_operands_le connective left).trans hleft⟩
  | @cons _ separator text' more second exprs hseparator _ _ =>
    -- The separator ends the operand, so the operand is read exactly.
    refine ⟨first, separator ++ text' ++ more ++ rest, reads_operand hfirst ?_, hrest⟩
    rw [List.append_assoc, List.append_assoc]
    exact hseparator.follows _

mutual

theorem covers_operand {connective : Connective} {text : List Char} {expr : Expr} :
    IsOperand connective text expr → ∀ rest,
      Covers (operand connective (text ++ rest)).toOption rest
  | .chain hchain, rest => by
    rw [operand]
    exact covers_chain hchain rest
  | .comparison hcomparison, rest => by
    rw [operand, term, group?_eq_none hcomparison]
    exact covers_comparison hcomparison rest
  | .group hbefore hchain hafter, rest =>
    .of_reads (reads_operand_of_group hbefore hchain.opens hafter
      (reads_chain hchain (follows_close .or hafter rest)))

theorem covers_chain {connective : Connective} {text : List Char} {expr : Expr} :
    IsChain connective text expr → ∀ rest, Covers (chain connective (text ++ rest)).toOption rest
  | .intro hfirst hmore, rest => by
    obtain ⟨_, left, hread, hleft⟩ := covers_operand_append hfirst hmore rest
      (covers_operand hfirst rest) (length_operands_append_le hmore rest)
    rw [List.append_assoc]
    exact ⟨_, _, reads_chain_of_operands hread (.of_eq_some rfl), hleft⟩

theorem length_operands_append_le {connective : Connective} {text : List Char}
    {exprs : List Expr} : IsMore connective text exprs → ∀ rest,
      (operands connective (text ++ rest)).rest.length ≤ rest.length
  | .nil, rest => length_operands_le connective rest
  | @IsMore.cons _ separator text more _ _ hseparator hfirst hmore, rest => by
    obtain ⟨_, left, hread, hleft⟩ := covers_operand_append hfirst hmore rest
      (covers_operand hfirst rest) (length_operands_append_le hmore rest)
    have hvisible := reads_separator? hseparator (hfirst.opens.append (more ++ rest)).stops_isLayout
    rw [List.append_assoc, List.append_assoc]
    obtain ⟨_, hrest⟩ :=
      Reads.some_iff.mp (reads_operands_of_operand hvisible hread (.of_eq_some rfl))
    rwa [hrest]

end

/-- A shorter end of a text has no more behind its layout. -/
theorem dropLayout_suffix {cs ds : List Char} (h : cs <:+ ds) :
    dropLayout cs <:+ dropLayout ds := by
  obtain ⟨front, rfl⟩ := h
  induction front with
  | nil => exact List.suffix_refl _
  | cons c front ih =>
    rw [List.cons_append, dropLayout_cons]
    split
    · exact ih
    · have hcs : cs <:+ c :: (front ++ cs) := List.suffix_append (c :: front) cs
      exact (List.dropWhile_suffix _).trans hcs

/-- A filter is read through the layout behind it, whatever follows. -/
theorem covers_filter {text : List Char} {expr : Expr} (h : IsFilter text expr)
    (rest : List Char) :
    ∃ value left, Reads (chain .or (dropLayout (text ++ rest))).toOption value left ∧
      (dropLayout left).length ≤ rest.length := by
  obtain @⟨before, inner, after, expr, hbefore, hchain, hafter⟩ := h
  have hstart : dropLayout (before ++ inner ++ after ++ rest) = inner ++ (after ++ rest) := by
    rw [List.append_assoc, List.append_assoc]
    exact dropLayout_append_of_stops hbefore (hchain.opens.append _).stops_isLayout
  obtain ⟨value, left, hread, hleft⟩ := covers_chain hchain (after ++ rest)
  obtain ⟨_, hok⟩ := hread.exists_ok
  obtain ⟨consumed, hconsumed, _⟩ := isChain_of_chain hok
  -- The layout behind the chain is dropped even if the chain was read on into the rest.
  have hsuffix : left <:+ after ++ rest :=
    List.suffix_of_suffix_length_le ⟨consumed, hconsumed.symm⟩ (List.suffix_append inner _) hleft
  have hrest : dropLayout left <:+ rest := by
    have hdropped := dropLayout_suffix hsuffix
    rw [dropLayout_append hafter] at hdropped
    exact hdropped.trans (List.dropWhile_suffix _)
  rw [hstart]
  exact ⟨value, left, hread, hrest.length_le⟩

/-! ## Where a chain fails -/

/-- A chain fails only where the comparison at its start does, and as that does. -/
theorem comparison_eq_error_of_chain {connective : Connective} {cs : List Char} {failure : Failure}
    (h : chain connective cs = .error failure) : comparison cs = .error failure := by
  -- A chain has the failure of its first operand, and an operand that is a term is no group.
  have hand : chain .and cs = .error failure → comparison cs = .error failure := by
    intro hchain
    rw [chain] at hchain
    split at hchain
    · next hoperand =>
      obtain rfl := Except.error.inj hchain
      rw [operand, term] at hoperand
      split at hoperand
      · cases hoperand
      · exact hoperand
    · cases hchain
  cases connective with
  | and => exact hand h
  | or =>
    rw [chain] at h
    split at h
    · next hoperand =>
      obtain rfl := Except.error.inj h
      rw [operand] at hoperand
      exact hand hoperand
    · cases h

theorem suffix_of_eq_append {text rest cs : List Char} (h : cs = text ++ rest) : rest <:+ cs :=
  ⟨text, h.symm⟩

/-- Reading layout behind something leaves an end of the text too. -/
theorem suffix_of_map_thenLayout {α : Type} {cs : List Char}
    {result : Option (Reading α cs.length)} {r : Reading α cs.length}
    (h : result.map (·.thenLayout) = some r)
    (hsuffix : ∀ s, result = some s → s.rest <:+ cs) : r.rest <:+ cs := by
  obtain ⟨s, hs, rfl⟩ := Option.map_eq_some_iff.mp h
  exact (List.dropWhile_suffix _).trans (hsuffix s hs)

/-- A comparison fails within the text, and not for something behind it. -/
theorem rest_suffix_of_comparison_eq_error {cs : List Char} {failure : Failure}
    (h : comparison cs = .error failure) :
    failure.rest <:+ cs ∧ failure.cause ≠ .unexpectedInput := by
  unfold comparison at h
  split at h
  · obtain rfl := Except.error.inj h
    exact ⟨List.suffix_refl _, Cause.noConfusion⟩
  · next selector hselector =>
    have hfirst : selector.rest <:+ cs := by
      refine suffix_of_map_thenLayout hselector fun word hword => ?_
      obtain ⟨text, hcs, _⟩ := isWord_of_word? hword
      exact suffix_of_eq_append hcs
    split at h
    · obtain rfl := Except.error.inj h
      exact ⟨hfirst, Cause.noConfusion⟩
    · next operator hoperator =>
      have hsecond : operator.rest <:+ selector.rest := by
        refine suffix_of_map_thenLayout hoperator fun symbol hsymbol => ?_
        obtain ⟨spelling, _, hcs, _⟩ := exists_spelling_of_operator? hsymbol
        exact suffix_of_eq_append hcs
      split at h
      · obtain rfl := Except.error.inj h
        exact ⟨hsecond.trans hfirst, Cause.noConfusion⟩
      · next arguments harguments =>
        obtain ⟨text, hcs, _⟩ := isArguments_of_arguments? harguments
        split at h
        · obtain rfl := Except.error.inj h
          exact ⟨(suffix_of_eq_append hcs).trans (hsecond.trans hfirst), Cause.noConfusion⟩
        · cases h

/-! ## Parts of a text -/

/-- The length in bytes is that of the text in UTF-8. -/
theorem byteLength_eq (cs : List Char) : byteLength cs = (String.ofList cs).utf8ByteSize := by
  induction cs with
  | nil => rfl
  | cons c cs ih =>
    rw [byteLength, ih, String.ofList_cons, String.utf8ByteSize_append,
      String.utf8ByteSize_singleton]

/-- A text is what is before a part that goes up to its end, and that part; and the first is as long
as the difference of the two. -/
theorem eq_append_of_toList_eq {text : String} {front rest : List Char}
    (h : text.toList = front ++ rest) :
    text = String.ofList front ++ String.ofList rest ∧
      (String.ofList front).utf8ByteSize = byteLength text.toList - byteLength rest := by
  constructor
  · rw [← String.ofList_append, ← h, String.ofList_toList]
  · rw [h, byteLength_append, byteLength_eq front]
    omega

/-- A text begins with a filter. -/
structure IsFilterPrefix (text front : String) : Prop where
  /-- the text goes on behind it -/
  exists_append : ∃ back, text = front ++ back
  /-- it is a filter -/
  exists_parse : ∃ expr, parse front = .ok expr

/-! ## Where a whole text is given up -/

/-- A text that begins with a filter is read at least to the end of it. -/
theorem IsFilterPrefix.exists_chain {text front : String} (h : IsFilterPrefix text front) :
    ∃ filter, chain .or (dropLayout text.toList) = .ok filter ∧
      ∃ back, text = front ++ back ∧ (dropLayout filter.rest).length ≤ back.toList.length := by
  obtain ⟨⟨back, rfl⟩, expr, hparse⟩ := h
  obtain ⟨value, left, hread, hleft⟩ := covers_filter (isFilter_of_parse hparse) back.toList
  rw [← String.toList_append] at hread
  obtain ⟨bound, hok⟩ := hread.exists_ok
  exact ⟨⟨value, left, bound⟩, hok, back, rfl, hleft⟩

/-- Of two parts that a text begins with, the one with less behind it is at least as long. -/
theorem utf8ByteSize_le_of_append_eq {front back front' back' : String}
    (h : front ++ back = front' ++ back') (hlength : back.toList.length ≤ back'.toList.length) :
    front'.utf8ByteSize ≤ front.utf8ByteSize := by
  have hlists : front.toList ++ back.toList = front'.toList ++ back'.toList := by
    rw [← String.toList_append, h, String.toList_append]
  rcases List.append_eq_append_iff.mp hlists with ⟨more, hfront, hback⟩ | ⟨more, hfront, hback⟩
  · have hmore : more = [] := by
      have hlengths := congrArg List.length hback
      rw [List.length_append] at hlengths
      exact List.eq_nil_of_length_eq_zero (by omega)
    rw [hmore, List.append_nil] at hfront
    rw [String.toList_injective hfront]
  · have hfronts : front = front' ++ String.ofList more := by
      apply String.toList_injective
      rw [hfront, String.toList_append, String.toList_ofList]
    rw [hfronts, String.utf8ByteSize_append]
    exact Nat.le_add_right _ _

/-- A text that is rejected is given up behind a part of it. Either the text does not begin with a
filter, and the fault is not one of something left; or that part is the longest filter that the text
begins with, and something is left. -/
theorem exists_front_of_parse_eq_error {text : String} {fault : SyntaxFault}
    (h : parse text = .error fault) :
    ∃ front back, text = front ++ back ∧ front.utf8ByteSize = fault.offset ∧
      ((fault.cause ≠ .unexpectedInput ∧ ∀ other, ¬ IsFilterPrefix text other) ∨
        (fault.cause = .unexpectedInput ∧ back ≠ "" ∧ IsFilterPrefix text front ∧
          ∀ other, IsFilterPrefix text other → other.utf8ByteSize ≤ fault.offset)) := by
  simp only [parse] at h
  split at h
  · next failure hfailure =>
    obtain rfl := Except.error.inj h
    obtain ⟨hsuffix, hcause⟩ :=
      rest_suffix_of_comparison_eq_error (comparison_eq_error_of_chain hfailure)
    obtain ⟨front, hfront⟩ := hsuffix.trans (List.dropWhile_suffix _)
    obtain ⟨htext, hoffset⟩ := eq_append_of_toList_eq hfront.symm
    refine ⟨_, _, htext, hoffset, .inl ⟨hcause, fun other hother => ?_⟩⟩
    obtain ⟨filter, hok, _⟩ := hother.exists_chain
    rw [hfailure] at hok
    cases hok
  · next filter hfilter =>
    split at h
    · cases h
    · next _ hrest =>
      obtain rfl := Except.error.inj h
      obtain ⟨front, hfront, hderived⟩ := isFilter_of_chain hfilter
      obtain ⟨htext, hoffset⟩ := eq_append_of_toList_eq hfront
      refine ⟨_, _, htext, hoffset, .inr ⟨rfl, ?_, ⟨⟨_, htext⟩, filter.value, ?_⟩, ?_⟩⟩
      · intro hempty
        have hchars := congrArg String.toList hempty
        rw [String.toList_ofList] at hchars
        exact hrest hchars
      · apply parse_of_isFilter
        rwa [String.toList_ofList]
      · intro other hother
        obtain ⟨filter', hok, back, hback, hlength⟩ := hother.exists_chain
        obtain rfl := Except.ok.inj (hfilter.symm.trans hok)
        rw [← hoffset]
        refine utf8ByteSize_le_of_append_eq (htext.symm.trans hback) ?_
        rwa [String.toList_ofList]

/-- **Where a rejected text is given up.** The offset is a place between two characters of the text.
Something is unexpected exactly if the text begins with a filter; and then what stands before the
offset is the longest filter that the text begins with, and there is something behind it. -/
theorem parse_fault_placed {text : String} {fault : SyntaxFault}
    (h : parse text = .error fault) :
    fault.offset ≤ text.utf8ByteSize ∧ String.Pos.Raw.IsValid text ⟨fault.offset⟩ ∧
    (fault.cause.message = "unexpected input" ↔ ∃ front, IsFilterPrefix text front) ∧
    ((∃ front, IsFilterPrefix text front) →
      fault.offset < text.utf8ByteSize ∧
      (∃ front, IsFilterPrefix text front ∧ front.utf8ByteSize = fault.offset) ∧
      ∀ front, IsFilterPrefix text front → front.utf8ByteSize ≤ fault.offset) := by
  obtain ⟨front, back, rfl, hoffset, hcause⟩ := exists_front_of_parse_eq_error h
  have hmessage : ∀ cause : Cause,
      cause.message = "unexpected input" ↔ cause = .unexpectedInput := by
    intro cause
    cases cause <;> decide
  have hsize : (front ++ back).utf8ByteSize = fault.offset + back.utf8ByteSize := by
    rw [String.utf8ByteSize_append, hoffset]
  refine ⟨by omega, ?_, ?_, ?_⟩
  · rw [String.Pos.Raw.isValid_iff_exists_append]
    exact ⟨front, back, rfl, congrArg String.Pos.Raw.mk hoffset.symm⟩
  · rw [hmessage]
    rcases hcause with ⟨hne, hnone⟩ | ⟨heq, _, hfront, _⟩
    · exact ⟨fun heq => absurd heq hne, fun ⟨other, hother⟩ => absurd hother (hnone other)⟩
    · exact ⟨fun _ => ⟨front, hfront⟩, fun _ => heq⟩
  · rintro ⟨other, hother⟩
    rcases hcause with ⟨_, hnone⟩ | ⟨_, hne, hfront, hlongest⟩
    · exact absurd hother (hnone other)
    · have hpos : back.utf8ByteSize ≠ 0 := fun hzero =>
        hne (String.utf8ByteSize_eq_zero_iff.mp hzero)
      exact ⟨by omega, ⟨front, hfront, hoffset⟩, hlongest⟩

/-- The keyword is read, but no operand behind it; so it is given back, and is what is left. -/
theorem parse_fault_placed_rewound :
    parse "é==ü or )x" = .error ⟨7, .unexpectedInput⟩ ∧
      (∃ front, IsFilterPrefix "é==ü or )x" front ∧ front.utf8ByteSize = 7) ∧
      ∀ front, IsFilterPrefix "é==ü or )x" front → front.utf8ByteSize ≤ 7 := by
  have hcomparison : Reads (comparison ['é', '=', '=', 'ü', ' ', 'o', 'r', ' ', ')', 'x']).toOption
      (.comparison ⟨⟨"é"⟩, .equal, ["ü"]⟩) [' ', 'o', 'r', ' ', ')', 'x'] :=
    ⟨by decide, rfl⟩
  have hterm : Reads (operand .and ['é', '=', '=', 'ü', ' ', 'o', 'r', ' ', ')', 'x']).toOption
      (.comparison ⟨⟨"é"⟩, .equal, ["ü"]⟩) [' ', 'o', 'r', ' ', ')', 'x'] := by
    rw [operand, term, group?]
    exact hcomparison
  have hand : Reads (some (operands .and [' ', 'o', 'r', ' ', ')', 'x'])) []
      [' ', 'o', 'r', ' ', ')', 'x'] := by
    rw [operands]
    exact ⟨by decide, rfl⟩
  have hor : Reads (some (operands .or [' ', 'o', 'r', ' ', ')', 'x'])) []
      [' ', 'o', 'r', ' ', ')', 'x'] := by
    have hseparator : Reads (separator? .or [' ', 'o', 'r', ' ', ')', 'x']) () [')', 'x'] :=
      ⟨by decide, rfl⟩
    have hoperand : operand .or [')', 'x'] = .error ⟨.invalidSelector, [')', 'x']⟩ := by
      rw [operand, chain, operand, term, group?]
      rfl
    obtain ⟨_, hseparator⟩ := hseparator
    rw [operands, hseparator]
    simp only [hoperand]
    exact ⟨by decide, rfl⟩
  have hchain : Reads (chain .or ['é', '=', '=', 'ü', ' ', 'o', 'r', ' ', ')', 'x']).toOption
      (.comparison ⟨⟨"é"⟩, .equal, ["ü"]⟩) [' ', 'o', 'r', ' ', ')', 'x'] := by
    refine reads_chain_of_operands ?_ hor
    rw [operand]
    exact reads_chain_of_operands hterm hand
  have hstart : Reads (chain .or (dropLayout "é==ü or )x".toList)).toOption
      (.comparison ⟨⟨"é"⟩, .equal, ["ü"]⟩) [' ', 'o', 'r', ' ', ')', 'x'] := hchain
  have hparse : parse "é==ü or )x" = .error ⟨7, .unexpectedInput⟩ :=
    parse_eq_error_of_reads_chain hstart (by decide)
  obtain ⟨-, -, haccepts, hlongest⟩ := parse_fault_placed hparse
  exact ⟨hparse, (hlongest (haccepts.mp (by decide))).2⟩

end FilterScope.Filter
