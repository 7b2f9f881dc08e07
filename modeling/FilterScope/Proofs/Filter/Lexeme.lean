import FilterScope.Proofs.Filter.Quoted

/-!
# What the readers of lexemes read

Each reader of the smallest parts of a filter is tied to its rule in the grammar from both sides.

* **What is read is derived** (`isWord_of_word?`, `isValue_of_argument?`, …): a reader takes a text
  that the rule derives off the front, and leaves what stands behind it.
* **What is derived is read** (`reads_word?`, `reads_argument?`, …): a text that the rule derives is
  read whole and no further. A bare word is read as far as it goes, so there the text behind it
  must not continue it.

An operator has to be told from longer ones with the same beginning, and a separator from the end
of its chain. Both are decided by one character, the first one that is not layout: an operator is
never followed by an equals sign, and `Connective.leads` lists what a separator can begin with.
-/

namespace FilterScope.Filter

open Text

/-! ## Layout -/

@[simp] theorem isLayout_nil : IsLayout [] := fun _ hc => absurd hc List.not_mem_nil

/-- A text is some layout and then what `dropLayout` leaves of it. -/
theorem exists_isLayout_append (cs : List Char) :
    ∃ layout, cs = layout ++ dropLayout cs ∧ IsLayout layout :=
  ⟨cs.takeWhile isLayout, List.takeWhile_append_dropWhile.symm, fun _ hc =>
    List.mem_takeWhile_imp hc⟩

/-- Layout stands in no bare word. -/
theorem isUnreserved_of_isLayout {c : Char} (h : isLayout c = true) : isUnreserved c = false := by
  simp [isUnreserved, isBlank_of_isLayout h]

/-- A bare word ends in front of layout. -/
theorem stops_isUnreserved_append {layout text : List Char} (h : IsLayout layout)
    (htext : Stops isUnreserved text) : Stops isUnreserved (layout ++ text) := by
  cases layout with
  | nil => exact htext
  | cons c cs => exact stops_cons.mpr (isUnreserved_of_isLayout (h c List.mem_cons_self))

/-! ## Arguments -/

/-- A bare word has a first character. -/
theorem IsWord.exists_cons {text : List Char} (h : IsWord text) :
    ∃ c more, text = c :: more ∧ isUnreserved c = true := by
  obtain ⟨c, more, rfl⟩ := List.exists_cons_of_ne_nil h.1
  exact ⟨c, more, rfl, h.2 c List.mem_cons_self⟩

/-- What is read as a bare word is one. -/
theorem isWord_of_word? {cs : List Char} {r : Reading String cs.length} (h : word? cs = some r) :
    ∃ text, cs = text ++ r.rest ∧ IsWord text ∧ r.value = String.ofList text := by
  cases cs with
  | nil => cases h
  | cons c cs =>
    by_cases hc : isUnreserved c = true
    · rw [word?, if_pos hc] at h
      obtain rfl := Option.some.inj h
      have hmore : ∀ d ∈ cs.takeWhile isUnreserved, isUnreserved d = true := fun _ hd =>
        List.mem_takeWhile_imp hd
      refine ⟨c :: cs.takeWhile isUnreserved, ?_, ⟨List.cons_ne_nil _ _, ?_⟩, rfl⟩
      · exact congrArg (c :: ·) List.takeWhile_append_dropWhile.symm
      · exact List.forall_mem_cons.mpr ⟨hc, hmore⟩
    · rw [word?, if_neg hc] at h
      cases h

/-- A bare word is read whole, up to where such words stop. -/
theorem reads_word? {text rest : List Char} (h : IsWord text) (hrest : Stops isUnreserved rest) :
    Reads (word? (text ++ rest)) (String.ofList text) rest := by
  obtain ⟨c, more, rfl, hc⟩ := h.exists_cons
  have hmore : ∀ d ∈ more, isUnreserved d = true := fun d hd => h.2 d (List.mem_cons_of_mem _ hd)
  have hvalue : (more ++ rest).takeWhile isUnreserved = more :=
    takeWhile_append_of_stops hmore hrest
  have hleft : (more ++ rest).dropWhile isUnreserved = rest :=
    dropWhile_append_of_stops hmore hrest
  rw [List.cons_append, word?, if_pos hc]
  refine ⟨by simp only [List.length_cons, List.length_append]; omega, ?_⟩
  exact congrArg some (Reading.ext (congrArg (fun run => String.ofList (c :: run)) hvalue) hleft)

/-- What is read as an argument is one. -/
theorem isValue_of_argument? {cs : List Char} {r : Reading String cs.length}
    (h : argument? cs = some r) : ∃ text, cs = text ++ r.rest ∧ IsValue text r.value := by
  cases cs with
  | nil => cases h
  | cons c cs =>
    by_cases hc : c = '"' ∨ c = '\''
    · rw [argument?, if_pos hc] at h
      obtain ⟨s, hs, rfl⟩ := Option.map_eq_some_iff.mp h
      obtain ⟨text, htext, hquoted⟩ := isQuoted_of_quoted? (ne_escape_of_quote hc) hs
      refine ⟨c :: text ++ [c], ?_, .quoted hc hquoted⟩
      rw [List.append_assoc]
      exact congrArg (c :: ·) htext
    · rw [argument?, if_neg hc] at h
      obtain ⟨text, htext, hword, hvalue⟩ := isWord_of_word? h
      exact ⟨text, htext, hvalue ▸ .word hword⟩

/-- A text that begins as a bare word is no quoted argument. -/
theorem IsWord.argument?_eq {text : List Char} (h : IsWord text) (rest : List Char) :
    argument? (text ++ rest) = word? (text ++ rest) := by
  obtain ⟨c, more, rfl, hc⟩ := h.exists_cons
  have hquote : ¬ (c = '"' ∨ c = '\'') := by
    rintro (rfl | rfl) <;> exact absurd hc (by decide)
  rw [List.cons_append, argument?, if_neg hquote]

/-- A quoted argument ends with its closing quote, whatever stands behind it. -/
theorem reads_argument?_of_isQuoted {quote : Char} {text value : List Char}
    (hquote : quote = '"' ∨ quote = '\'') (hquoted : IsQuoted quote text value)
    (rest : List Char) :
    Reads (argument? (quote :: text ++ [quote] ++ rest)) (String.ofList value) rest := by
  rw [List.append_assoc, List.cons_append, List.singleton_append, argument?, if_pos hquote]
  exact (reads_quoted? (ne_escape_of_quote hquote) hquoted rest).map fun _ => ⟨rfl, rfl⟩

/-- An argument is read whole, up to where bare words stop. -/
theorem reads_argument? {text rest : List Char} {value : String} (h : IsValue text value)
    (hrest : Stops isUnreserved rest) : Reads (argument? (text ++ rest)) value rest := by
  cases h with
  | word hword =>
    rw [hword.argument?_eq]
    exact reads_word? hword hrest
  | quoted hquote hquoted => exact reads_argument?_of_isQuoted hquote hquoted rest

/-! ## Operators -/

/-- A spelling that is read stands at the front. -/
theorem Spelling.eq_append_of_read? {s : Spelling} {cs : List Char} {r : Reading Operator cs.length}
    (h : s.read? cs = some r) : cs = s.text ++ r.rest ∧ r.value = s.operator := by
  cases cs with
  | nil => cases h
  | cons c cs =>
    by_cases hc : c = s.lead
    · rw [read?, if_pos hc] at h
      obtain ⟨t, ht, rfl⟩ := Option.map_eq_some_iff.mp h
      rw [hc]
      exact ⟨congrArg (s.lead :: ·) (eq_append_of_text? ht), rfl⟩
    · rw [read?, if_neg hc] at h
      cases h

/-- An operator that is read stands at the front in one of its spellings. -/
theorem exists_spelling_of_operator? {cs : List Char} {r : Reading Operator cs.length}
    (h : operator? cs = some r) :
    ∃ s ∈ Spelling.all, cs = s.text ++ r.rest ∧ r.value = s.operator := by
  obtain ⟨s, hs, hread⟩ := List.exists_of_findSome?_eq_some h
  exact ⟨s, hs, s.eq_append_of_read? hread⟩

/-- A spelling is read whole unless an equals sign behind it makes it another one. -/
theorem reads_operator? {s : Spelling} {rest : List Char} (hs : s ∈ Spelling.all)
    (hrest : Stops (· == '=') rest) : Reads (operator? (s.text ++ rest)) s.operator rest := by
  have hmore : text? ['='] rest = none := by
    cases rest with
    | nil => rfl
    | cons c cs =>
      have hc : '=' ≠ c := fun h => absurd (stops_cons.mp hrest) (by simp [← h])
      rw [text?, if_neg hc]
  have hbound : rest.length < (s.text ++ rest).length := by
    simp only [Spelling.text, List.length_append, List.length_cons]
    omega
  refine ⟨hbound, ?_⟩
  clear hrest
  -- Only a spelling that begins a longer one is followed by a look at the text behind it.
  rcases List.mem_append.mp hs with hs | hs
  · obtain ⟨operator, -, rfl⟩ := List.mem_map.mp hs
    cases operator <;>
      simp [operator?, Spelling.all, Operator.all, Spelling.canonical, Spelling.read?,
        Spelling.text, text?, Reading.map, Reading.weaken, Reading.nothing]
  · simp only [Spelling.alternatives, List.mem_cons, List.not_mem_nil, or_false] at hs
    rcases hs with rfl | rfl | rfl | rfl <;>
      simp [operator?, Spelling.all, Operator.all, Spelling.canonical, Spelling.alternatives,
        Spelling.read?, Spelling.text, text?, hmore, Reading.map, Reading.weaken, Reading.nothing]

/-! ## Keywords and marks -/

/-- A keyword that is read stands at the front, in letters of either case. -/
theorem eq_append_of_caseless? {keyword cs : List Char} {r : Reading Unit (cs.length + 1)}
    (h : caseless? keyword cs = some r) :
    ∃ word, cs = word ++ r.rest ∧ word.map Char.toLower = keyword := by
  induction keyword generalizing cs with
  | nil =>
    rw [caseless?] at h
    obtain rfl := Option.some.inj h
    exact ⟨[], rfl, rfl⟩
  | cons k keyword ih =>
    cases cs with
    | nil => cases h
    | cons c cs =>
      by_cases hc : c.toLower = k
      · rw [caseless?, if_pos hc] at h
        obtain ⟨s, hs, rfl⟩ := Option.map_eq_some_iff.mp h
        obtain ⟨word, hword, hlower⟩ := ih hs
        exact ⟨c :: word, congrArg (c :: ·) hword, by rw [List.map_cons, hc, hlower]⟩
      · rw [caseless?, if_neg hc] at h
        cases h

/-- A keyword is read in letters of either case. -/
theorem reads_caseless? (word rest : List Char) :
    Reads (caseless? (word.map Char.toLower) (word ++ rest)) () rest := by
  induction word with
  | nil => exact .of_eq_some rfl
  | cons c word ih =>
    rw [List.map_cons, List.cons_append, caseless?, if_pos rfl]
    exact ih.map fun _ => ⟨rfl, rfl⟩

/-- Layout that is read stands at the front, and is not empty. -/
theorem eq_append_of_layout? {cs : List Char} {r : Reading Unit cs.length}
    (h : layout? cs = some r) :
    ∃ layout, cs = layout ++ r.rest ∧ IsLayout layout ∧ layout ≠ [] := by
  cases cs with
  | nil => cases h
  | cons c cs =>
    by_cases hc : isLayout c = true
    · rw [layout?, if_pos hc] at h
      obtain rfl := Option.some.inj h
      obtain ⟨layout, hcs, hlayout⟩ := exists_isLayout_append cs
      have hall : IsLayout (c :: layout) := List.forall_mem_cons.mpr ⟨hc, hlayout⟩
      exact ⟨c :: layout, congrArg (c :: ·) hcs, hall, List.cons_ne_nil _ _⟩
    · rw [layout?, if_neg hc] at h
      cases h

/-- Layout is read up to where it stops. -/
theorem reads_layout? {layout rest : List Char} (h : IsLayout layout) (hne : layout ≠ [])
    (hrest : Stops isLayout rest) : Reads (layout? (layout ++ rest)) () rest := by
  obtain ⟨c, more, rfl⟩ := List.exists_cons_of_ne_nil hne
  have hmore : IsLayout more := fun d hd => h d (List.mem_cons_of_mem _ hd)
  have hleft : dropLayout (more ++ rest) = rest := dropLayout_append_of_stops hmore hrest
  rw [List.cons_append, layout?, if_pos (h c List.mem_cons_self)]
  exact ⟨by simp only [List.length_cons, List.length_append]; omega,
    congrArg some (Reading.ext rfl hleft)⟩

/-- A mark that is read stands behind layout, and the layout behind it is read too. -/
theorem eq_append_of_mark? {mark : Char} {cs : List Char} {r : Reading Unit cs.length}
    (h : mark? mark cs = some r) :
    ∃ before after, cs = before ++ mark :: after ++ r.rest ∧ IsLayout before ∧ IsLayout after := by
  unfold mark? at h
  split at h
  · cases h
  · next c hc =>
    split at h
    · next hmark =>
      obtain rfl := Option.some.inj h
      obtain ⟨before, hcs, hbefore⟩ := exists_isLayout_append cs
      obtain ⟨after, hrest, hafter⟩ := exists_isLayout_append c.rest
      refine ⟨before, after, ?_, hbefore, hafter⟩
      rw [dropLayout_of_visible? hc, hmark, hrest] at hcs
      rw [List.append_assoc]
      exact hcs
    · cases h

/-- A mark is read with the layout on both sides. -/
theorem reads_mark? {mark : Char} {before after rest : List Char} (hbefore : IsLayout before)
    (hmark : isLayout mark = false) (hafter : IsLayout after) (hrest : Stops isLayout rest) :
    Reads (mark? mark (before ++ mark :: after ++ rest)) () rest := by
  have hstart : dropLayout (before ++ mark :: after ++ rest) = mark :: (after ++ rest) := by
    rw [List.append_assoc]
    exact dropLayout_append_of_stops hbefore (stops_cons.mpr hmark)
  obtain ⟨bound, hread⟩ := reads_visible? hstart
  rw [mark?, hread]
  simp only [if_true]
  exact Reads.some_iff.mpr ⟨rfl, dropLayout_append_of_stops hafter hrest⟩

/-- Where another character is the first behind layout, no mark is read. -/
theorem mark?_eq_none {mark : Char} {cs : List Char} (h : Stops (· == mark) (dropLayout cs)) :
    mark? mark cs = none := by
  rw [mark?]
  split
  · rfl
  · next c hc =>
    rw [dropLayout_of_visible? hc, stops_cons] at h
    rw [if_neg (by simpa using h)]

/-- A keyword that is read stands between layout. -/
theorem eq_append_of_keyword? {keyword cs : List Char} {r : Reading Unit cs.length}
    (h : keyword? keyword cs = some r) :
    ∃ before word after, cs = before ++ word ++ after ++ r.rest ∧ IsLayout before ∧ before ≠ [] ∧
      word.map Char.toLower = keyword ∧ IsLayout after ∧ after ≠ [] := by
  unfold keyword? at h
  split at h
  · cases h
  · next first hfirst =>
    split at h
    · cases h
    · next middle hmiddle =>
      obtain ⟨last, hlast, rfl⟩ := Option.map_eq_some_iff.mp h
      obtain ⟨before, hcs, hbefore, hne⟩ := eq_append_of_layout? hfirst
      obtain ⟨word, hword, hlower⟩ := eq_append_of_caseless? hmiddle
      obtain ⟨after, hafter, hlayout, hne'⟩ := eq_append_of_layout? hlast
      refine ⟨before, word, after, ?_, hbefore, hne, hlower, hlayout, hne'⟩
      rw [List.append_assoc, List.append_assoc]
      exact hcs.trans (congrArg (before ++ ·) (hword.trans (congrArg (word ++ ·) hafter)))

/-- A keyword between layout is read with all of the layout. -/
theorem reads_keyword? {before word after rest : List Char} (hbefore : IsLayout before)
    (hne : before ≠ []) (hafter : IsLayout after) (hne' : after ≠ [])
    (hword : Stops isLayout (word ++ after ++ rest)) (hrest : Stops isLayout rest) :
    Reads (keyword? (word.map Char.toLower) (before ++ word ++ after ++ rest)) () rest := by
  rw [List.append_assoc, List.append_assoc]
  rw [List.append_assoc] at hword
  obtain ⟨_, hfirst⟩ := reads_layout? hbefore hne hword
  obtain ⟨_, hmiddle⟩ := reads_caseless? word (after ++ rest)
  rw [keyword?, hfirst]
  simp only [hmiddle]
  exact (reads_layout? hafter hne' hrest).map fun _ => ⟨rfl, rfl⟩

/-! ## Separators -/

namespace Connective

/-- Whether a separator of a connective can begin with a character, layout aside. -/
def leads (connective : Connective) (c : Char) : Bool :=
  c == connective.mark || connective.keyword.head? == some c.toLower

variable {connective : Connective} {c : Char}

/-- A separator leads with its mark, or with the first letter of its keyword. -/
theorem leads_iff : connective.leads c = true ↔
    c = connective.mark ∨ connective.keyword.head? = some c.toLower := by
  simp [leads]

theorem not_isLayout_of_leads (h : connective.leads c = true) : isLayout c = false := by
  by_contra hc
  simp only [Bool.not_eq_false, isLayout, Bool.or_eq_true, beq_iff_eq] at hc
  rcases hc with ((rfl | rfl) | rfl) | rfl <;> cases connective <;> exact absurd h (by decide)

theorem isLayout_mark (connective : Connective) : isLayout connective.mark = false :=
  not_isLayout_of_leads (leads_iff.mpr (.inl rfl))

/-- A keyword in letters of either case begins with neither layout nor the mark. -/
theorem exists_cons_of_keyword {word : List Char}
    (h : word.map Char.toLower = connective.keyword) :
    ∃ c more, word = c :: more ∧ isLayout c = false ∧ c ≠ connective.mark := by
  have hhead : word.head?.map Char.toLower = connective.keyword.head? := by
    rw [← h, List.head?_map]
  -- No keyword is empty, and none has a first letter that is layout or a mark.
  cases word with
  | nil => cases connective <;> cases hhead
  | cons c more =>
    have hlower : some c.toLower = connective.keyword.head? := hhead
    refine ⟨c, more, rfl, not_isLayout_of_leads (leads_iff.mpr (.inr hlower.symm)), ?_⟩
    rintro rfl
    cases connective <;> exact absurd hlower (by decide)

/-- The separators of the two connectives begin differently. -/
theorem not_leads_and_of_leads_or (h : Connective.or.leads c = true) :
    Connective.and.leads c = false := by
  rcases leads_iff.mp h with rfl | hc
  · decide
  · have hlower : c.toLower = 'o' := (Option.some.inj hc).symm
    have hmark : c ≠ ';' := by
      rintro rfl
      exact absurd hlower (by decide)
    simp [leads, mark, keyword, hlower, hmark]

end Connective

/-- Behind its layout, a separator has a character that leads one. -/
theorem IsSeparator.leads {connective : Connective} {separator : List Char}
    (h : IsSeparator connective separator) :
    ∃ before c more, separator = before ++ c :: more ∧ IsLayout before ∧
      connective.leads c = true := by
  cases h with
  | @mark before after hbefore hafter =>
    exact ⟨before, connective.mark, after, rfl, hbefore, Connective.leads_iff.mpr (.inl rfl)⟩
  | @keyword before word after hbefore hne hword hafter hne' =>
    have hhead : word.head?.map Char.toLower = connective.keyword.head? := by
      rw [← hword, List.head?_map]
    cases word with
    | nil => cases connective <;> cases hhead
    | cons c word =>
      refine ⟨before, c, word ++ after, List.append_assoc _ _ _, hbefore, ?_⟩
      exact Connective.leads_iff.mpr (.inr hhead.symm)

/-- What is read as a separator is one. -/
theorem isSeparator_of_separator? {connective : Connective} {cs : List Char}
    {r : Reading Unit cs.length} (h : separator? connective cs = some r) :
    ∃ separator, cs = separator ++ r.rest ∧ IsSeparator connective separator := by
  rw [separator?, Option.orElse_eq_orElse, Option.orElse_eq_or, Option.or_eq_some_iff] at h
  rcases h with hmark | ⟨-, hkeyword⟩
  · obtain ⟨before, after, hcs, hbefore, hafter⟩ := eq_append_of_mark? hmark
    exact ⟨_, hcs, .mark hbefore hafter⟩
  · obtain ⟨before, word, after, hcs, hbefore, hne, hword, hafter, hne'⟩ :=
      eq_append_of_keyword? hkeyword
    exact ⟨_, hcs, .keyword hbefore hne hword hafter hne'⟩

/-- A separator is read whole, up to where layout stops. -/
theorem reads_separator? {connective : Connective} {separator rest : List Char}
    (h : IsSeparator connective separator) (hrest : Stops isLayout rest) :
    Reads (separator? connective (separator ++ rest)) () rest := by
  cases h with
  | @mark before after hbefore hafter =>
    exact (reads_mark? hbefore connective.isLayout_mark hafter hrest).orElse _
  | @keyword before word after hbefore hne hword hafter hne' =>
    obtain ⟨c, more, rfl, hlayout, hmark⟩ := connective.exists_cons_of_keyword hword
    have hstart : Stops isLayout (c :: more ++ after ++ rest) := stops_cons.mpr hlayout
    -- The mark is tried first, and is not there.
    have hnone : mark? connective.mark (before ++ c :: more ++ after ++ rest) = none := by
      refine mark?_eq_none ?_
      rw [List.append_assoc, List.append_assoc, ← List.append_assoc (c :: more),
        dropLayout_append_of_stops hbefore hstart]
      exact stops_cons.mpr (by simpa using hmark)
    rw [separator?, hnone, ← hword]
    exact reads_keyword? hbefore hne hafter hne' hstart hrest

/-- There is no separator where the first character that is not layout begins none. -/
theorem separator?_eq_none {connective : Connective} {cs : List Char}
    (h : Stops connective.leads (dropLayout cs)) : separator? connective cs = none := by
  rcases hread : separator? connective cs with _ | r
  · rfl
  · obtain ⟨separator, hcs, hseparator⟩ := isSeparator_of_separator? hread
    obtain ⟨before, c, more, rfl, hbefore, hc⟩ := hseparator.leads
    have hlayout : isLayout c = false := Connective.not_isLayout_of_leads hc
    rw [hcs, List.append_assoc, List.cons_append,
      dropLayout_append_of_stops hbefore (stops_cons.mpr hlayout), stops_cons, hc] at h
    cases h

end FilterScope.Filter
