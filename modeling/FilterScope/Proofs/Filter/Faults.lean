import FilterScope.Proofs.Filter.Refusal

/-!
# What is reported of a text that begins with no filter

A text that does not begin with a filter is read as a comparison, part by part, up to the first part
that is not there. That is the place of the fault, and the part gives it its message (`FaultAt`).

* Layout is passed over, and a selector is expected (`AtSelector`). An opening parenthesis is no
  selector; so whatever is wrong with a group, it is reported here.
* Behind the whole selector and layout an operator is expected (`AtOperator`).
* Behind the operator and layout arguments are expected (`AtArguments`). They are there as a whole
  or not at all: a quote that is not closed or a list that is broken is reported where it begins.
* Behind a list of arguments it is reported that there are several, if the operator takes one.

The messages are those of `Refuses`, whose places are rests of the text behind its layout. Here the
places are told by what stands before them, from the beginning of the text on.
-/

namespace FilterScope.Filter

open Text

/-! ## Places -/

/-- A selector is expected behind a text, which is all the layout there is. -/
structure AtSelector (before rest : List Char) : Prop where
  /-- it is layout -/
  before : IsLayout before
  /-- and all of it -/
  rest : Stops isLayout rest

/-- An operator is expected behind a text. -/
inductive AtOperator : List Char → List Char → Prop where
  /-- it ends with a selector that does not go on, and all the layout there is -/
  | intro {before word layout rest : List Char}
      (hbefore : AtSelector before (word ++ (layout ++ rest))) (hword : IsWord word)
      (hends : Stops isUnreserved (layout ++ rest)) (hlayout : IsLayout layout)
      (hrest : Stops isLayout rest) : AtOperator (before ++ word ++ layout) rest

/-- Arguments of an operator are expected behind a text. -/
inductive AtArguments : List Char → List Char → Operator → Prop where
  /-- it ends with the longest spelling of the operator that fits, and all the layout there is -/
  | intro {before layout rest : List Char} {s : Spelling}
      (hbefore : AtOperator before (s.text ++ (layout ++ rest)))
      (hfits : s.Fits (s.text ++ (layout ++ rest)) (layout ++ rest)) (hlayout : IsLayout layout)
      (hrest : Stops isLayout rest) : AtArguments (before ++ s.text ++ layout) rest s.operator

/-- The fault of a text that begins with no filter: the number of bytes before it, and a message. -/
inductive FaultAt : List Char → Nat → String → Prop where
  /-- there is no unreserved character where a selector is expected -/
  | selector {before rest : List Char} (hplace : AtSelector before rest)
      (hnone : Stops isUnreserved rest) :
      FaultAt (before ++ rest) (byteLength before) "invalid selector"
  /-- no spelling of an operator is where one is expected -/
  | operator {before rest : List Char} (hplace : AtOperator before rest)
      (hnone : ∀ s ∈ Spelling.all, ¬ s.text <+: rest) :
      FaultAt (before ++ rest) (byteLength before) "invalid comparison operator"
  /-- neither an argument nor a list of them is where arguments are expected -/
  | argument {before rest : List Char} {operator : Operator}
      (hplace : AtArguments before rest operator)
      (hnone : ∀ text values, IsArguments text values → ¬ text <+: rest) :
      FaultAt (before ++ rest) (byteLength before) "invalid argument"
  /-- the operator takes one argument, and there is a list of several -/
  | singleArgument {before text rest : List Char} {operator : Operator} {values : List String}
      (hplace : AtArguments before (text ++ rest) operator)
      (hone : operator.takesMany = false) (harguments : IsArguments text values)
      (hcount : values.length ≠ 1) :
      FaultAt (before ++ text ++ rest) (byteLength (before ++ text)) "invalid single argument"

/-! ## Places behind layout -/

section Places

variable {before cs rest word : List Char}

/-- Behind the layout in front of a selector stands the selector. -/
theorem AtSelector.dropLayout_eq (h : AtSelector before rest) :
    dropLayout (before ++ rest) = rest :=
  dropLayout_append_of_stops h.before h.rest

/-- In front of the place of an operator there is a selector. -/
theorem AtOperator.exists_word (h : AtOperator before rest) :
    ∃ word cs, dropLayout (before ++ rest) = word ++ cs ∧ IsWord word ∧ Stops isUnreserved cs ∧
      dropLayout cs = rest := by
  obtain @⟨before, word, layout, rest, hbefore, hword, hends, hlayout, hrest⟩ := h
  rw [List.append_assoc, List.append_assoc, hbefore.dropLayout_eq]
  exact ⟨word, layout ++ rest, rfl, hword, hends, dropLayout_append_of_stops hlayout hrest⟩

/-- In front of the place of arguments there are a selector and an operator. -/
theorem AtArguments.exists_fits {operator : Operator} (h : AtArguments before rest operator) :
    ∃ word cs s left, dropLayout (before ++ rest) = word ++ cs ∧ IsWord word ∧
      Stops isUnreserved cs ∧ Spelling.Fits s (dropLayout cs) left ∧ dropLayout left = rest ∧
      s.operator = operator := by
  obtain @⟨before, layout, rest, s, hbefore, hfits, hlayout, hrest⟩ := h
  obtain ⟨word, cs, hstart, hword, hends, hcs⟩ := hbefore.exists_word
  rw [List.append_assoc, List.append_assoc]
  exact ⟨word, cs, s, layout ++ rest, hstart, hword, hends, hcs ▸ hfits,
    dropLayout_append_of_stops hlayout hrest, rfl⟩

/-- A selector is expected behind the layout in front. -/
theorem exists_atSelector (cs : List Char) :
    ∃ before, cs = before ++ dropLayout cs ∧ AtSelector before (dropLayout cs) := by
  obtain ⟨before, hcs, hbefore⟩ := exists_isLayout_append cs
  exact ⟨before, hcs, hbefore, stops_dropWhile isLayout cs⟩

variable {text : List Char}

/-- An operator is expected behind a selector and layout. -/
theorem exists_atOperator (hstart : dropLayout text = word ++ cs) (hword : IsWord word)
    (hends : Stops isUnreserved cs) :
    ∃ before, text = before ++ dropLayout cs ∧ AtOperator before (dropLayout cs) := by
  obtain ⟨before, htext, hbefore⟩ := exists_atSelector text
  obtain ⟨layout, hcs, hlayout⟩ := exists_isLayout_append cs
  rw [hstart, hcs] at htext hbefore
  rw [hcs] at hends
  refine ⟨before ++ word ++ layout, ?_, .intro hbefore hword hends hlayout
    (stops_dropWhile isLayout cs)⟩
  rw [htext, List.append_assoc, List.append_assoc]

/-- Arguments are expected behind an operator and layout. -/
theorem exists_atArguments {s : Spelling} (hstart : dropLayout text = word ++ cs)
    (hword : IsWord word) (hends : Stops isUnreserved cs) (hfits : s.Fits (dropLayout cs) rest) :
    ∃ before, text = before ++ dropLayout rest ∧
      AtArguments before (dropLayout rest) s.operator := by
  obtain ⟨before, htext, hbefore⟩ := exists_atOperator hstart hword hends
  obtain ⟨layout, hrest, hlayout⟩ := exists_isLayout_append rest
  have hcs := hfits.text_append
  rw [hrest] at hcs hfits
  rw [hcs] at htext hbefore hfits
  refine ⟨before ++ s.text ++ layout, ?_, .intro hbefore hfits hlayout
    (stops_dropWhile isLayout rest)⟩
  rw [htext, List.append_assoc, List.append_assoc]

end Places

/-! ## Faults and reasons -/

/-- A text is refused for the reason that its fault gives, and at the same place. -/
theorem FaultAt.exists_refuses {cs : List Char} {offset : Nat} {message : String}
    (h : FaultAt cs offset message) :
    ∃ cause front rest, Refuses (dropLayout cs) ⟨cause, rest⟩ ∧ cs = front ++ rest ∧
      byteLength front = offset ∧ cause.message = message := by
  cases h with
  | selector hplace hnone =>
    rw [hplace.dropLayout_eq]
    exact ⟨_, _, _, .selector hnone, rfl, rfl, rfl⟩
  | operator hplace hnone =>
    obtain ⟨word, cs, hstart, hword, hends, rfl⟩ := hplace.exists_word
    rw [hstart]
    exact ⟨_, _, _, .operator hword hends hnone, rfl, rfl, rfl⟩
  | argument hplace hnone =>
    obtain ⟨word, cs, s, left, hstart, hword, hends, hfits, rfl, -⟩ := hplace.exists_fits
    rw [hstart]
    exact ⟨_, _, _, .argument hword hends hfits hnone, rfl, rfl, rfl⟩
  | singleArgument hplace hone harguments hcount =>
    obtain ⟨word, cs, s, left, hstart, hword, hends, hfits, hleft, rfl⟩ := hplace.exists_fits
    rw [List.append_assoc, hstart, ← List.append_assoc]
    exact ⟨_, _, _, .singleArgument hword hends hfits harguments hleft hone hcount, rfl, rfl, rfl⟩

/-- A text that is refused has the fault that the reason gives, at the same place. -/
theorem exists_faultAt_of_refuses {text : List Char} {failure : Failure}
    (h : Refuses (dropLayout text) failure) :
    ∃ front, text = front ++ failure.rest ∧
      FaultAt text (byteLength front) failure.cause.message := by
  generalize hstart : dropLayout text = start at h
  cases h with
  | selector hnone =>
    obtain ⟨before, htext, hbefore⟩ := exists_atSelector text
    rw [hstart] at htext hbefore
    exact ⟨before, htext, htext ▸ .selector hbefore hnone⟩
  | operator hword hends hnone =>
    obtain ⟨before, htext, hbefore⟩ := exists_atOperator hstart hword hends
    exact ⟨before, htext, htext ▸ .operator hbefore hnone⟩
  | argument hword hends hfits hnone =>
    obtain ⟨before, htext, hbefore⟩ := exists_atArguments hstart hword hends hfits
    exact ⟨before, htext, htext ▸ .argument hbefore hnone⟩
  | singleArgument hword hends hfits harguments hrest hone hcount =>
    obtain ⟨before, htext, hbefore⟩ := exists_atArguments hstart hword hends hfits
    rw [hrest] at htext hbefore
    rw [← List.append_assoc] at htext
    exact ⟨_, htext, htext ▸ .singleArgument hbefore hone harguments hcount⟩

/-! ## Whole texts -/

/-- A text that begins with no filter fails as the comparison at its start does. -/
theorem exists_parse_eq_error_of_no_filter {text : String}
    (h : ∀ front, ¬ IsFilterPrefix text front) :
    ∃ failure : Failure, parse text =
        .error ⟨byteLength text.toList - byteLength failure.rest, failure.cause⟩ ∧
      comparison (dropLayout text.toList) = .error failure := by
  cases hchain : chain .or (dropLayout text.toList) with
  | error failure =>
    refine ⟨failure, ?_, comparison_eq_error_of_chain hchain⟩
    simp only [parse, hchain]
  | ok filter =>
    -- what was read is a filter that the text begins with
    obtain ⟨front, hfront, hderived⟩ := isFilter_of_chain hchain
    obtain ⟨htext, -⟩ := eq_append_of_toList_eq hfront
    refine absurd ⟨⟨_, htext⟩, filter.value, ?_⟩ (h (String.ofList front))
    apply parse_of_isFilter
    rwa [String.toList_ofList]

/-- The words tell the causes apart. -/
theorem Cause.message_inj {cause cause' : Cause} (h : cause.message = cause'.message) :
    cause = cause' := by
  revert h
  cases cause <;> cases cause' <;> decide

/-- **The fault of a text that begins with no filter.** Such a text is rejected, and its fault has
an offset and a message exactly if they are those of the first part that is expected and not there.
In particular, whatever is wrong behind an opening parenthesis, it is the parenthesis that is
reported, as an invalid selector. -/
theorem parse_fault_of_no_filter {text : String} (h : ∀ front, ¬ IsFilterPrefix text front) :
    (∃ fault, parse text = .error fault) ∧
    (∀ offset message, (∃ fault, parse text = .error fault ∧ fault.offset = offset ∧
      fault.cause.message = message) ↔ FaultAt text.toList offset message) ∧
    ∀ before inside, IsLayout before → text.toList = before ++ '(' :: inside →
      parse text = .error ⟨byteLength before, .invalidSelector⟩ := by
  obtain ⟨failure, hparse, hcomparison⟩ := exists_parse_eq_error_of_no_filter h
  obtain ⟨front, htext, hfault⟩ :=
    exists_faultAt_of_refuses (refuses_of_comparison_eq_error hcomparison)
  have hoffset {front' : List Char} (htext' : text.toList = front' ++ failure.rest) :
      byteLength text.toList - byteLength failure.rest = byteLength front' := by
    rw [htext', byteLength_append]
    omega
  rw [hoffset htext] at hparse
  have hiff : ∀ offset message, (∃ fault, parse text = .error fault ∧ fault.offset = offset ∧
      fault.cause.message = message) ↔ FaultAt text.toList offset message := by
    intro offset message
    constructor
    · rintro ⟨fault, hfailed, rfl, rfl⟩
      obtain rfl := Except.error.inj (hparse.symm.trans hfailed)
      exact hfault
    · intro hother
      obtain ⟨cause, front', rest, hrefuses, htext', rfl, rfl⟩ := hother.exists_refuses
      -- a comparison fails for one reason and at one place only
      obtain rfl := Except.error.inj
        (hcomparison.symm.trans (comparison_eq_error_of_refuses hrefuses))
      exact ⟨_, hparse, (hoffset htext).symm.trans (hoffset htext'), rfl⟩
  refine ⟨⟨_, hparse⟩, hiff, fun before inside hbefore hopen => ?_⟩
  have hselector : FaultAt text.toList (byteLength before) "invalid selector" := by
    rw [hopen]
    exact .selector ⟨hbefore, stops_cons.mpr (by decide)⟩ (stops_cons.mpr (by decide))
  obtain ⟨⟨offset, cause⟩, hfailed, rfl, hmessage⟩ := (hiff _ _).mpr hselector
  have hcause : cause = .invalidSelector := Cause.message_inj hmessage
  rw [hfailed, hcause]

/-- A list with a quote that is not closed is reported where the list begins. -/
theorem parse_fault_of_no_filter_unclosed :
    (∀ front, ¬ IsFilterPrefix "\té =ge= ('a;b" front) ∧
      FaultAt "\té =ge= ('a;b".toList 9 "invalid argument" := by
  have hchain : chain .or ['é', ' ', '=', 'g', 'e', '=', ' ', '(', '\'', 'a', ';', 'b'] =
      .error ⟨.invalidArgument, ['(', '\'', 'a', ';', 'b']⟩ := by
    rw [chain, operand, chain, operand, term, group?]
    rfl
  have hfailed : chain .or (dropLayout "\té =ge= ('a;b".toList) =
      .error ⟨.invalidArgument, ['(', '\'', 'a', ';', 'b']⟩ := hchain
  have hparse : parse "\té =ge= ('a;b" = .error ⟨9, .invalidArgument⟩ := by
    simp only [parse, hfailed]
    rfl
  have hnone : ∀ front, ¬ IsFilterPrefix "\té =ge= ('a;b" front := by
    obtain ⟨_, _, -, -, ⟨-, hnone⟩ | ⟨hcause, -⟩⟩ := exists_front_of_parse_eq_error hparse
    · exact hnone
    · cases hcause
  exact ⟨hnone, ((parse_fault_of_no_filter hnone).2.1 _ _).mp ⟨_, hparse, rfl, rfl⟩⟩

end FilterScope.Filter
