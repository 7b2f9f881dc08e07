import FilterScope.Proofs.Filter.Stopping

/-!
# Why a text does not begin with a comparison

A comparison is a selector, an operator and arguments, and it is refused for the first of them that
is not there (`Refuses`). Each is looked for behind the longest reading of the one before: a
selector goes up to the first character that cannot stand in it, and an operator has the longest
spelling that fits (`Spelling.Fits`). Which spelling that is does not depend on the order in
which they are tried, because none comes before a longer one that it begins
(`Spelling.pairwise_all`).

`comparison_eq_error_iff` says that the parser gives these reasons, each at its place, and no
others.
-/

namespace FilterScope.Filter

open Text

/-! ## The longest spelling of an operator -/

/-- A spelling of an operator begins the text, and no longer one does. -/
structure Spelling.Fits (s : Spelling) (cs rest : List Char) : Prop where
  /-- the spelling is one of an operator -/
  mem : s ∈ Spelling.all
  /-- the text begins with it -/
  text_append : cs = s.text ++ rest
  /-- the text begins with no longer one -/
  longest : ∀ other ∈ Spelling.all, other.text <+: cs → other.text.length ≤ s.text.length

namespace Spelling

/-- No spelling is tried before another one that it begins. -/
theorem pairwise_all : Spelling.all.Pairwise fun s other => ¬ s.text <+: other.text := by
  decide

/-- A text is read where it stands. -/
theorem reads_text? (text rest : List Char) : Reads (text? text (text ++ rest)) () rest := by
  induction text with
  | nil => exact .of_eq_some rfl
  | cons c text ih =>
    rw [List.cons_append, text?, if_pos rfl]
    exact ih.map fun _ => ⟨rfl, rfl⟩

/-- A spelling is read where it stands. -/
theorem reads_read? (s : Spelling) (rest : List Char) :
    Reads (s.read? (s.text ++ rest)) s.operator rest := by
  rw [text, List.cons_append, read?, if_pos rfl]
  exact (reads_text? s.more rest).map fun _ => ⟨rfl, rfl⟩

/-- A spelling is not read if and only if the text does not begin with it. -/
theorem read?_eq_none_iff {s : Spelling} {cs : List Char} :
    s.read? cs = none ↔ ¬ s.text <+: cs := by
  constructor
  · rintro hnone ⟨rest, rfl⟩
    obtain ⟨_, hread⟩ := s.reads_read? rest
    cases hnone.symm.trans hread
  · intro hfront
    rcases hread : s.read? cs with _ | r
    · rfl
    · exact absurd ⟨r.rest, (s.eq_append_of_read? hread).1.symm⟩ hfront

end Spelling

/-- No operator is read if and only if the text begins with none of the spellings. -/
theorem operator?_eq_none_iff {cs : List Char} :
    operator? cs = none ↔ ∀ s ∈ Spelling.all, ¬ s.text <+: cs := by
  simp only [operator?, List.findSome?_eq_none_iff, Spelling.read?_eq_none_iff]

/-- The operator with the longest spelling is read. -/
theorem Spelling.Fits.reads_operator? {s : Spelling} {cs rest : List Char} (h : s.Fits cs rest) :
    Reads (operator? cs) s.operator rest := by
  obtain ⟨hmem, rfl, hlongest⟩ := h
  obtain ⟨before, after, hall⟩ := List.append_of_mem hmem
  have hpairwise := Spelling.pairwise_all
  rw [hall, List.pairwise_append] at hpairwise
  obtain ⟨-, -, hbefore⟩ := hpairwise
  -- A spelling that is tried before is no longer, so if it fitted it would begin this one.
  have hnone : before.findSome? (·.read? (s.text ++ rest)) = none := by
    rw [List.findSome?_eq_none_iff]
    intro other hother
    rw [Spelling.read?_eq_none_iff]
    intro hfront
    have hlength := hlongest other (hall ▸ List.mem_append_left _ hother) hfront
    have hbegins := List.prefix_of_prefix_length_le hfront (List.prefix_append s.text rest) hlength
    exact hbefore other hother s List.mem_cons_self hbegins
  obtain ⟨bound, hread⟩ := s.reads_read? rest
  refine ⟨bound, ?_⟩
  rw [operator?, hall, List.findSome?_append, hnone, List.findSome?_cons, hread]
  rfl

/-- The operator that is read has the longest spelling. -/
theorem exists_fits_of_operator? {cs : List Char} {r : Reading Operator cs.length}
    (h : operator? cs = some r) : ∃ s : Spelling, s.Fits cs r.rest ∧ r.value = s.operator := by
  obtain ⟨before, s, after, hall, hread, hbefore⟩ := List.findSome?_eq_some_iff.mp h
  obtain ⟨hcs, hvalue⟩ := s.eq_append_of_read? hread
  have hpairwise := Spelling.pairwise_all
  rw [hall, List.pairwise_append, List.pairwise_cons] at hpairwise
  obtain ⟨-, ⟨hafter, -⟩, -⟩ := hpairwise
  refine ⟨s, ⟨by simp [hall], hcs, fun other hother hfront => ?_⟩, hvalue⟩
  rw [hall, List.mem_append, List.mem_cons] at hother
  rcases hother with hother | rfl | hother
  · exact absurd hfront (Spelling.read?_eq_none_iff.mp (hbefore other hother))
  · exact Nat.le_refl _
  · -- A longer one that is tried after would be one that this one begins.
    by_contra hlonger
    have hs : s.text <+: cs := ⟨r.rest, hcs.symm⟩
    have hbegins := List.prefix_of_prefix_length_le hs hfront (by omega)
    exact hafter other hother hbegins

/-! ## Reasons -/

/-- A text does not begin with a comparison, for a reason that shows at a place in it. -/
inductive Refuses : List Char → Failure → Prop where
  /-- it does not begin with a selector -/
  | selector {cs : List Char} (hnone : Stops isUnreserved cs) : Refuses cs ⟨.invalidSelector, cs⟩
  /-- behind the selector and layout there is no operator -/
  | operator {word cs : List Char} (hword : IsWord word) (hends : Stops isUnreserved cs)
      (hnone : ∀ s ∈ Spelling.all, ¬ s.text <+: dropLayout cs) :
      Refuses (word ++ cs) ⟨.invalidOperator, dropLayout cs⟩
  /-- behind the operator and layout there are no arguments -/
  | argument {word cs rest : List Char} {s : Spelling} (hword : IsWord word)
      (hends : Stops isUnreserved cs) (hoperator : s.Fits (dropLayout cs) rest)
      (hnone : ∀ text values, IsArguments text values → ¬ text <+: dropLayout rest) :
      Refuses (word ++ cs) ⟨.invalidArgument, dropLayout rest⟩
  /-- there is a list of arguments, and the operator takes one -/
  | singleArgument {word cs rest text left : List Char} {s : Spelling} {values : List String}
      (hword : IsWord word) (hends : Stops isUnreserved cs)
      (hoperator : s.Fits (dropLayout cs) rest) (harguments : IsArguments text values)
      (hrest : dropLayout rest = text ++ left) (hone : s.operator.takesMany = false)
      (hcount : values.length ≠ 1) : Refuses (word ++ cs) ⟨.invalidSingleArgument, left⟩

/-- No bare word is read if and only if none can begin there. -/
theorem word?_eq_none_iff {cs : List Char} : word? cs = none ↔ Stops isUnreserved cs := by
  cases cs with
  | nil => simp [word?]
  | cons c cs => simp [word?]

/-- What is left behind a bare word does not go on with it. -/
theorem stops_of_word? {cs : List Char} {r : Reading String cs.length} (h : word? cs = some r) :
    Stops isUnreserved r.rest := by
  cases cs with
  | nil => cases h
  | cons c cs =>
    by_cases hc : isUnreserved c = true
    · rw [word?, if_pos hc] at h
      obtain rfl := Option.some.inj h
      exact stops_dropWhile isUnreserved cs
    · rw [word?, if_neg hc] at h
      cases h

/-- No arguments are read if and only if the text begins with none. -/
theorem arguments?_eq_none_iff {cs : List Char} :
    arguments? cs = none ↔ ∀ text values, IsArguments text values → ¬ text <+: cs := by
  constructor
  · rintro hnone text values harguments ⟨rest, rfl⟩
    obtain ⟨_, _, ⟨_, hread⟩, -, -⟩ := covers_arguments? harguments rest
    cases hnone.symm.trans hread
  · intro hfront
    rcases hread : arguments? cs with _ | r
    · rfl
    · obtain ⟨text, hcs, harguments⟩ := isArguments_of_arguments? hread
      exact absurd ⟨r.rest, hcs.symm⟩ (hfront text r.value harguments)

/-- A list of arguments other than one is read as it is derived. -/
theorem reads_arguments?_of_length_ne {text : List Char} {values : List String}
    (h : IsArguments text values) (hcount : values.length ≠ 1) (rest : List Char) :
    Reads (arguments? (text ++ rest)) values rest := by
  cases h with
  | single => exact absurd rfl hcount
  | list hbefore hvalue hmore hafter =>
    exact reads_arguments?_of_list hbefore hvalue hmore hafter rest

/-! ## The reasons that the parser gives -/

/-- A comparison that is not read is refused for the reason that is given. -/
theorem refuses_of_comparison_eq_error {cs : List Char} {failure : Failure}
    (h : comparison cs = .error failure) : Refuses cs failure := by
  unfold comparison at h
  split at h
  · next hselector =>
    obtain rfl := Except.error.inj h
    exact .selector (word?_eq_none_iff.mp (Option.map_eq_none_iff.mp hselector))
  · next selector hselector =>
    obtain ⟨word, hword, rfl⟩ := Option.map_eq_some_iff.mp hselector
    obtain ⟨text, hcs, hselectorWord, -⟩ := isWord_of_word? hword
    have hends := stops_of_word? hword
    rw [hcs]
    split at h
    · next hoperator =>
      obtain rfl := Except.error.inj h
      exact .operator hselectorWord hends
        (operator?_eq_none_iff.mp (Option.map_eq_none_iff.mp hoperator))
    · next operator hoperator =>
      obtain ⟨symbol, hsymbol, rfl⟩ := Option.map_eq_some_iff.mp hoperator
      obtain ⟨s, hfits, hmeaning⟩ := exists_fits_of_operator? hsymbol
      split at h
      · next harguments =>
        obtain rfl := Except.error.inj h
        exact .argument hselectorWord hends hfits (arguments?_eq_none_iff.mp harguments)
      · next arguments harguments =>
        obtain ⟨list, hrest, hlist⟩ := isArguments_of_arguments? harguments
        split at h
        · next hcount =>
          obtain rfl := Except.error.inj h
          have hboth : s.operator.takesMany = false ∧ arguments.value.length ≠ 1 := by
            rw [← hmeaning]
            simpa [Reading.thenLayout] using hcount
          exact .singleArgument hselectorWord hends hfits hlist hrest hboth.1 hboth.2
        · cases h

/-- A reason to refuse a comparison is given. -/
theorem comparison_eq_error_of_refuses {cs : List Char} {failure : Failure}
    (h : Refuses cs failure) : comparison cs = .error failure := by
  cases h with
  | selector hnone =>
    rw [comparison, word?_eq_none_iff.mpr hnone]
    rfl
  | operator hword hends hnone =>
    obtain ⟨_, hselector⟩ := (reads_word? hword hends).thenLayout rfl
    rw [comparison, hselector]
    simp only [operator?_eq_none_iff.mpr hnone, Option.map_none]
  | argument hword hends hoperator hnone =>
    obtain ⟨_, hselector⟩ := (reads_word? hword hends).thenLayout rfl
    obtain ⟨_, hsymbol⟩ := hoperator.reads_operator?.thenLayout rfl
    rw [comparison, hselector]
    simp only [hsymbol, arguments?_eq_none_iff.mpr hnone]
  | @singleArgument word cs rest text left s values hword hends hoperator harguments hrest hone
      hcount =>
    obtain ⟨_, hselector⟩ := (reads_word? hword hends).thenLayout rfl
    obtain ⟨_, hsymbol⟩ := hoperator.reads_operator?.thenLayout hrest
    obtain ⟨_, hlist⟩ := reads_arguments?_of_length_ne harguments hcount left
    have hrefused : (!s.operator.takesMany && values.length != 1) = true := by
      simp [hone, hcount]
    rw [comparison, hselector]
    simp only [hsymbol, hlist, hrefused, if_true]

/-- A comparison fails for the reasons why a text does not begin with one. -/
theorem comparison_eq_error_iff {cs : List Char} {failure : Failure} :
    comparison cs = .error failure ↔ Refuses cs failure :=
  ⟨refuses_of_comparison_eq_error, comparison_eq_error_of_refuses⟩

end FilterScope.Filter
