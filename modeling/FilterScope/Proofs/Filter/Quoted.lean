import Mathlib.Data.Nat.Find
import FilterScope.Filter.Grammar
import FilterScope.Filter.Printer
import FilterScope.Proofs.Text.Reading

/-!
# Quoted arguments

Where a quoted argument ends, and what it says, is told in three ways.

* **By position.** A character is escaped if it stands behind a backslash that is not escaped itself
  (`isEscaped`). The argument ends at the first quote that is not escaped (`ClosesAt`), and its
  content is every character before that, but for the backslashes that escape (`contentBefore`).
* **By a scan** from left to right (`scan?`), which is the plain way of reading. It ends where the
  positions say (`reads_scan?_of_closesAt`).
* **By the reader**, which goes over content without a backslash in one go, and over the rest
  character by character. It reads what the scan reads (`quoted?_eq_scan?`).

Every text can be quoted, because a backslash before each quote and each backslash leaves none of
its quotes unescaped (`isQuoted_escaped`).
-/

namespace FilterScope.Filter

open Text

/-- Quotes are no backslashes. -/
theorem ne_escape_of_quote {quote : Char} (h : quote = '"' ∨ quote = '\'') : quote ≠ '\\' := by
  rintro rfl
  exact absurd h (by decide)

/-! ## The plain scan -/

/-- Reads the content of a quoted argument and its closing quote from left to right. -/
def scan? (quote : Char) : (cs : List Char) → Option (Reading (List Char) cs.length)
  | [] => none
  | c :: cs =>
    if c = quote then
      some (.one [] c cs)
    else if c = '\\' then
      match cs with
      | [] => none
      | d :: cs => (scan? quote cs).map fun r => (r.map (d :: ·)).weaken.weaken
    else
      (scan? quote cs).map fun r => (r.map (c :: ·)).weaken

section Paths

variable {quote : Char}

/-- The scan ends at a quote. -/
theorem scan?_quote (quote : Char) (cs : List Char) :
    scan? quote (quote :: cs) = some (.one [] quote cs) := by
  rw [scan?.eq_def]
  simp only [if_true]

/-- The scan keeps a plain character. -/
theorem scan?_plain {c : Char} (hc : isPlain quote c = true) (cs : List Char) :
    scan? quote (c :: cs) = (scan? quote cs).map fun r => (r.map (c :: ·)).weaken := by
  obtain ⟨hquote, hescape⟩ : c ≠ quote ∧ c ≠ '\\' := by simpa [isPlain] using hc
  rw [scan?.eq_def]
  simp only [hquote, hescape, if_false]

/-- The scan keeps an escaped character, and drops the backslash. -/
theorem scan?_escaped (hquote : quote ≠ '\\') (c : Char) (cs : List Char) :
    scan? quote ('\\' :: c :: cs) =
      (scan? quote cs).map fun r => (r.map (c :: ·)).weaken.weaken := by
  rw [scan?.eq_def]
  simp only [hquote.symm, if_false, if_true]

/-- Where the closing quote is next, the scan reads it and no more content. -/
theorem scan?_of_char? {cs : List Char} {closing : Reading Unit cs.length}
    (h : char? quote cs = some closing) : scan? quote cs = some (closing.map fun _ => []) := by
  cases cs with
  | nil => cases h
  | cons c cs =>
    by_cases hc : c = quote
    · subst hc
      rw [char?, if_pos rfl] at h
      obtain rfl := Option.some.inj h
      exact scan?_quote c cs
    · rw [char?_cons_of_ne hc] at h
      cases h

/-- Read one character at a time, content continues what was read before. -/
theorem unescape?_eq_scan? (hquote : quote ≠ '\\') (done cs : List Char) :
    unescape? quote done cs = (scan? quote cs).map fun r => r.map (done.reverse ++ ·) := by
  fun_induction unescape? quote done cs with
  | case1 => rfl
  | case2 done => simp [scan?, hquote.symm]
  | case3 done d cs ih =>
    rw [ih, scan?_escaped hquote, Option.map_map, Option.map_map]
    congr 1
    funext r
    simp [Reading.map, Reading.weaken]
  | case4 done cs _ =>
    rw [scan?_quote]
    simp [Reading.map, Reading.one]
  | case5 done c cs hescape hc ih =>
    rw [ih, scan?_plain (by simp [isPlain, hc, hescape]), Option.map_map, Option.map_map]
    congr 1
    funext r
    simp [Reading.map, Reading.weaken]

/-- A reading that goes on from behind plain characters. -/
def resumed (quote : Char) (cs : List Char) : Option (Reading (List Char) (cs.length + 1)) :=
  let plain := run (isPlain quote) cs
  (scan? quote plain.rest).map fun r => plain.andThen (r.map (plain.value ++ ·)).weaken

/-- Content that is taken as it is, and content that is read one character at a time, are both what
the scan makes of the text behind the plain characters. -/
theorem quoted?_eq_resumed (hquote : quote ≠ '\\') (cs : List Char) :
    quoted? quote cs = resumed quote cs := by
  rw [quoted?, resumed]
  split
  · next closing hclosing =>
    rw [scan?_of_char? hclosing]
    simp [Reading.map]
  · rw [unescape?_eq_scan? hquote, Option.map_map, List.reverse_reverse]
    rfl

theorem run_cons_of_pos {kind : Char → Bool} {c : Char} (hc : kind c = true) (cs : List Char) :
    run kind (c :: cs) = ((run kind cs).map (c :: ·)).weaken :=
  Reading.ext (List.takeWhile_cons_of_pos hc) (List.dropWhile_cons_of_pos hc)

theorem run_cons_of_neg {kind : Char → Bool} {c : Char} (hc : ¬ kind c = true) (cs : List Char) :
    run kind (c :: cs) = .nothing [] (c :: cs) :=
  Reading.ext (List.takeWhile_cons_of_neg hc) (List.dropWhile_cons_of_neg hc)

/-- The scan goes over plain characters one by one. -/
theorem scan?_eq_resumed (quote : Char) (cs : List Char) :
    (scan? quote cs).map (·.weaken) = resumed quote cs := by
  induction cs with
  | nil => rfl
  | cons c cs ih =>
    by_cases hc : isPlain quote c = true
    · have hstep : (scan? quote (c :: cs)).map (·.weaken) =
          ((scan? quote cs).map (·.weaken)).map fun r => (r.map (c :: ·)).weaken := by
        rw [scan?_plain hc, Option.map_map, Option.map_map]
        rfl
      rw [hstep, ih, resumed, resumed, run_cons_of_pos hc, Option.map_map]
      rfl
    · rw [resumed, run_cons_of_neg hc]
      rfl

/-- The reader reads what the scan reads. -/
theorem quoted?_eq_scan? (hquote : quote ≠ '\\') (cs : List Char) :
    quoted? quote cs = (scan? quote cs).map (·.weaken) :=
  (quoted?_eq_resumed hquote cs).trans (scan?_eq_resumed quote cs).symm

end Paths

/-! ## Positions -/

/-- Whether the character at a position is escaped: before it stands a backslash that is not escaped
itself. -/
def isEscaped (cs : List Char) : Nat → Bool
  | 0 => false
  | i + 1 => cs[i]? == some '\\' && !isEscaped cs i

/-- A quote stands at a position and is not escaped. -/
def Unescaped (quote : Char) (cs : List Char) (i : Nat) : Prop :=
  cs[i]? = some quote ∧ isEscaped cs i = false

instance (quote : Char) (cs : List Char) (i : Nat) : Decidable (Unescaped quote cs i) :=
  inferInstanceAs (Decidable (_ ∧ _))

/-- The first quote that is not escaped stands at a position. -/
structure ClosesAt (quote : Char) (cs : List Char) (i : Nat) : Prop where
  /-- a quote that is not escaped stands there -/
  unescaped : Unescaped quote cs i
  /-- and none before -/
  first : ∀ j < i, ¬ Unescaped quote cs j

/-- The character at a position, unless it is a backslash that escapes the one behind it. -/
def kept? (cs : List Char) (i : Nat) : Option Char :=
  if isEscaped cs (i + 1) then none else cs[i]?

/-- The characters before a position without the backslashes that escape. -/
def contentBefore (cs : List Char) (i : Nat) : List Char :=
  (List.range i).filterMap (kept? cs)

section Positions

variable {quote c : Char} {cs : List Char} {i : Nat}

/-- If some quote is not escaped, there is a first one. -/
theorem exists_closesAt (h : Unescaped quote cs i) : ∃ i, ClosesAt quote cs i := by
  classical
  have hexists : ∃ i, Unescaped quote cs i := ⟨i, h⟩
  exact ⟨Nat.find hexists, Nat.find_spec hexists, fun j hj => Nat.find_min hexists hj⟩

/-! A character that is no backslash moves every position by one. -/

theorem isEscaped_plain (hc : c ≠ '\\') (i : Nat) :
    isEscaped (c :: cs) (i + 1) = isEscaped cs i := by
  induction i with
  | zero => simp [isEscaped, hc]
  | succ i ih => rw [isEscaped, ih, isEscaped, List.getElem?_cons_succ]

theorem unescaped_plain (hc : c ≠ '\\') :
    Unescaped quote (c :: cs) (i + 1) ↔ Unescaped quote cs i := by
  rw [Unescaped, isEscaped_plain hc, List.getElem?_cons_succ, Unescaped]

theorem ClosesAt.of_plain (hc : c ≠ '\\') (h : ClosesAt quote (c :: cs) (i + 1)) :
    ClosesAt quote cs i :=
  ⟨(unescaped_plain hc).mp h.unescaped, fun j hj hunescaped =>
    h.first (j + 1) (Nat.succ_lt_succ hj) ((unescaped_plain hc).mpr hunescaped)⟩

theorem contentBefore_plain (hc : c ≠ '\\') (i : Nat) :
    contentBefore (c :: cs) (i + 1) = c :: contentBefore cs i := by
  have hfirst : kept? (c :: cs) 0 = some c := by simp [kept?, isEscaped, hc]
  have hmore : kept? (c :: cs) ∘ Nat.succ = kept? cs := by
    funext j
    simp only [Function.comp_apply, kept?, isEscaped_plain hc, List.getElem?_cons_succ]
  rw [contentBefore, List.range_succ_eq_map, List.filterMap_cons_some hfirst, List.filterMap_map,
    hmore, contentBefore]

/-! A backslash and the character behind it move every position by two. -/

/-- An escaped character does not escape the one behind it. -/
theorem isEscaped_escaped (i : Nat) : isEscaped ('\\' :: c :: cs) (i + 2) = isEscaped cs i := by
  induction i with
  | zero => simp [isEscaped]
  | succ i ih => rw [isEscaped, ih, isEscaped, List.getElem?_cons_succ, List.getElem?_cons_succ]

theorem unescaped_escaped :
    Unescaped quote ('\\' :: c :: cs) (i + 2) ↔ Unescaped quote cs i := by
  rw [Unescaped, isEscaped_escaped, List.getElem?_cons_succ, List.getElem?_cons_succ, Unescaped]

theorem ClosesAt.of_escaped (h : ClosesAt quote ('\\' :: c :: cs) (i + 2)) :
    ClosesAt quote cs i :=
  ⟨unescaped_escaped.mp h.unescaped, fun j hj hunescaped =>
    h.first (j + 2) (Nat.add_lt_add_right hj 2) (unescaped_escaped.mpr hunescaped)⟩

theorem contentBefore_escaped (i : Nat) :
    contentBefore ('\\' :: c :: cs) (i + 2) = c :: contentBefore cs i := by
  have hfirst : kept? ('\\' :: c :: cs) 0 = none := by simp [kept?, isEscaped]
  have hsecond : kept? ('\\' :: c :: cs) 1 = some c := by simp [kept?, isEscaped]
  have hmore : kept? ('\\' :: c :: cs) ∘ Nat.succ ∘ Nat.succ = kept? cs := by
    funext j
    simp only [Function.comp_apply, kept?, isEscaped_escaped, List.getElem?_cons_succ]
  rw [contentBefore, List.range_succ_eq_map, List.range_succ_eq_map, List.map_cons, List.map_map,
    List.filterMap_cons_none hfirst, List.filterMap_cons_some hsecond, List.filterMap_map, hmore,
    contentBefore]

end Positions

/-! ## What the scan reads -/

section Scan

variable {quote : Char} {cs : List Char}

/-- The scan reads up to the first quote that is not escaped, and keeps what does not escape. -/
theorem reads_scan?_of_closesAt {i : Nat} (h : ClosesAt quote cs i) :
    Reads (scan? quote cs) (contentBefore cs i) (cs.drop (i + 1)) := by
  fun_induction scan? quote cs generalizing i with
  | case1 => cases h.unescaped.1
  | case2 cs =>
    cases i with
    | zero => exact .of_eq_some rfl
    | succ i => exact absurd ⟨rfl, rfl⟩ (h.first 0 (Nat.succ_pos i))
  | case3 hc =>
    match i, h.unescaped.1 with
    | 0, hat => exact absurd (Option.some.inj hat) hc
  | case4 d cs hc ih =>
    match i, h with
    | 0, h => exact absurd (Option.some.inj h.unescaped.1) hc
    | 1, h => exact absurd h.unescaped.2 (by simp [isEscaped])
    | i + 2, h =>
      rw [contentBefore_escaped]
      exact (ih h.of_escaped).map fun _ => ⟨rfl, rfl⟩
  | case5 c cs hc hescape ih =>
    cases i with
    | zero => exact absurd (Option.some.inj h.unescaped.1) hc
    | succ i =>
      rw [contentBefore_plain hescape]
      exact (ih (h.of_plain hescape)).map fun _ => ⟨rfl, rfl⟩

/-- The scan ends at a quote that is not escaped. -/
theorem exists_unescaped_of_scan? {r : Reading (List Char) cs.length}
    (h : scan? quote cs = some r) : ∃ i, Unescaped quote cs i := by
  fun_induction scan? quote cs with
  | case1 => cases h
  | case2 cs => exact ⟨0, rfl, rfl⟩
  | case3 => cases h
  | case4 d cs hc ih =>
    obtain ⟨s, hs, -⟩ := Option.map_eq_some_iff.mp h
    obtain ⟨i, hi⟩ := ih hs
    exact ⟨i + 2, unescaped_escaped.mpr hi⟩
  | case5 c cs hc hescape ih =>
    obtain ⟨s, hs, -⟩ := Option.map_eq_some_iff.mp h
    obtain ⟨i, hi⟩ := ih hs
    exact ⟨i + 1, (unescaped_plain hescape).mpr hi⟩

end Scan

/-! ## The grammar of quoted content -/

section Grammar

variable {quote : Char}

/-- What the scan reads is quoted content and its closing quote. -/
theorem isQuoted_of_scan? {cs : List Char} {r : Reading (List Char) cs.length}
    (h : scan? quote cs = some r) :
    ∃ text, cs = text ++ quote :: r.rest ∧ IsQuoted quote text r.value := by
  fun_induction scan? quote cs with
  | case1 => cases h
  | case2 cs =>
    obtain rfl := Option.some.inj h
    exact ⟨[], rfl, .nil⟩
  | case3 => cases h
  | case4 d cs hquote ih =>
    obtain ⟨s, hs, rfl⟩ := Option.map_eq_some_iff.mp h
    obtain ⟨text, htext, hquoted⟩ := ih hs
    exact ⟨'\\' :: d :: text, congrArg ('\\' :: d :: ·) htext, .escaped hquoted⟩
  | case5 c cs hquote hescape ih =>
    obtain ⟨s, hs, rfl⟩ := Option.map_eq_some_iff.mp h
    obtain ⟨text, htext, hquoted⟩ := ih hs
    exact ⟨c :: text, congrArg (c :: ·) htext, .plain hquote hescape hquoted⟩

/-- What the reader reads is quoted content and its closing quote. -/
theorem isQuoted_of_quoted? (hquote : quote ≠ '\\') {cs : List Char}
    {r : Reading (List Char) (cs.length + 1)} (h : quoted? quote cs = some r) :
    ∃ text, cs = text ++ quote :: r.rest ∧ IsQuoted quote text r.value := by
  rw [quoted?_eq_scan? hquote] at h
  obtain ⟨s, hs, rfl⟩ := Option.map_eq_some_iff.mp h
  exact isQuoted_of_scan? hs

/-- The scan reads quoted content through the quote behind it. -/
theorem reads_scan? {text value : List Char} (hquote : quote ≠ '\\')
    (h : IsQuoted quote text value) (rest : List Char) :
    Reads (scan? quote (text ++ quote :: rest)) value rest := by
  induction h with
  | nil =>
    rw [List.nil_append, scan?_quote]
    exact .of_eq_some rfl
  | plain hc hescape _ ih =>
    rw [List.cons_append, scan?_plain (by simp [isPlain, hc, hescape])]
    exact ih.map fun _ => ⟨rfl, rfl⟩
  | escaped _ ih =>
    rw [List.cons_append, List.cons_append, scan?_escaped hquote]
    exact ih.map fun _ => ⟨rfl, rfl⟩

/-- Quoted content is read through the quote behind it. -/
theorem reads_quoted? {text value : List Char} (hquote : quote ≠ '\\')
    (h : IsQuoted quote text value) (rest : List Char) :
    Reads (quoted? quote (text ++ quote :: rest)) value rest := by
  rw [quoted?_eq_scan? hquote]
  exact (reads_scan? hquote h rest).map fun _ => ⟨rfl, rfl⟩

/-- Every text can be quoted. -/
theorem isQuoted_escaped (quote : Char) (text : List Char) :
    IsQuoted quote (escaped quote text) text := by
  induction text with
  | nil => exact .nil
  | cons c text ih =>
    by_cases hc : c = quote ∨ c = '\\'
    · rw [escaped, if_pos hc]
      exact .escaped ih
    · rw [escaped, if_neg hc]
      obtain ⟨hquote, hescape⟩ := not_or.mp hc
      exact .plain hquote hescape ih

end Grammar

/-! ## What the reader reads -/

/-- The reader succeeds if and only if some quote is not escaped. -/
theorem isSome_quoted?_iff {quote : Char} (hquote : quote ≠ '\\') (cs : List Char) :
    (quoted? quote cs).isSome = true ↔ ∃ i, Unescaped quote cs i := by
  rw [quoted?_eq_scan? hquote, Option.isSome_map, Option.isSome_iff_exists]
  constructor
  · rintro ⟨r, hr⟩
    exact exists_unescaped_of_scan? hr
  · rintro ⟨i, hi⟩
    obtain ⟨_, hcloses⟩ := exists_closesAt hi
    obtain ⟨_, hread⟩ := reads_scan?_of_closesAt hcloses
    exact ⟨_, hread⟩

/-- **Quoted arguments.** Behind an opening quote of either kind, reading succeeds if and only if
some quote of that kind is not escaped. It then takes the text up to and including the first of
them, and keeps every character before it but for the backslashes that escape. Both ways through the
reader come to what a plain scan from left to right reads, and so does the character by character
way alone. And every text is read back from between quotes, with a backslash before each of its
quotes and backslashes, whatever stands behind. -/
theorem quoted?_reads {quote : Char} (hquote : quote = '"' ∨ quote = '\'') (cs : List Char) :
    ((quoted? quote cs).isSome = true ↔ ∃ i, Unescaped quote cs i) ∧
    (∀ i, ClosesAt quote cs i →
      Reads (quoted? quote cs) (contentBefore cs i) (cs.drop (i + 1))) ∧
    (quoted? quote cs = (scan? quote cs).map (·.weaken) ∧
      unescape? quote [] cs = scan? quote cs) ∧
    (∀ value, Reads (quoted? quote (escaped quote value ++ quote :: cs)) value cs ∧
      Reads (argument? (quote :: escaped quote value ++ quote :: cs))
        (String.ofList value) cs) := by
  have hescape := ne_escape_of_quote hquote
  refine ⟨isSome_quoted?_iff hescape cs, fun i hcloses => ?_,
    ⟨quoted?_eq_scan? hescape cs, ?_⟩, fun value => ?_⟩
  · rw [quoted?_eq_scan? hescape]
    exact (reads_scan?_of_closesAt hcloses).map fun _ => ⟨rfl, rfl⟩
  · have hmap : (fun r : Reading (List Char) cs.length => r.map ([].reverse ++ ·)) = id := rfl
    rw [unescape?_eq_scan? hescape, hmap, Option.map_id, id]
  · have hread := reads_quoted? hescape (isQuoted_escaped quote value) cs
    refine ⟨hread, ?_⟩
    rw [List.cons_append, argument?, if_pos hquote]
    exact hread.map fun _ => ⟨rfl, rfl⟩

/-- Behind an opening single quote: an escaped one, quotes of the other kind, and an escaped
backslash before the closing quote. -/
def oddQuotes : List Char :=
  ['i', 't', '\\', '\'', 's', ' ', '"', 'x', '"', '\\', '\\', '\'', ' ', 'y']

theorem quoted?_reads_oddQuotes :
    ClosesAt '\'' oddQuotes 11 ∧ (quoted? '\'' oddQuotes).isSome = true ∧
      Reads (quoted? '\'' oddQuotes) ['i', 't', '\'', 's', ' ', '"', 'x', '"', '\\']
        [' ', 'y'] := by
  have hcloses : ClosesAt '\'' oddQuotes 11 := ⟨by decide, by decide⟩
  have hcontent : contentBefore oddQuotes 11 = ['i', 't', '\'', 's', ' ', '"', 'x', '"', '\\'] := by
    decide
  obtain ⟨hsome, hreads, -, -⟩ := quoted?_reads (.inr rfl) oddQuotes
  exact ⟨hcloses, hsome.mpr ⟨11, hcloses.unescaped⟩, hcontent ▸ hreads 11 hcloses⟩

end FilterScope.Filter
