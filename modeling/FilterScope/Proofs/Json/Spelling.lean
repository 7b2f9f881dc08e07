import FilterScope.Proofs.Json.Grammar

/-!
# What is read is a spelling

Every spelling of a value is read as that value. Conversely, what is read off the front of a text is
white space and then a spelling of the value that was read (`spells_of_run_value`), so a document
that is read as a value spells it (`isDocument_of_document`).

The grammar has no rule for numbers, so this is said of values in which no number stands
(`Value.NumberFree`). Nothing has to be known of the texts where a number was read: the value tells.
-/

namespace FilterScope.Json

open Text

/-- No number stands in a value. -/
inductive Value.NumberFree : Value → Prop where
  /-- `null` is no number -/
  | null : NumberFree .null
  /-- a truth value is no number -/
  | bool {b : Bool} : NumberFree (.bool b)
  /-- a string is no number -/
  | text {s : String} : NumberFree (.text s)
  /-- a list of values in which no number stands -/
  | list {items : List Value} (hitems : ∀ v ∈ items, NumberFree v) : NumberFree (.list items)
  /-- an object of values in which no number stands -/
  | object {entries : List (String × Value)} (hentries : ∀ entry ∈ entries, NumberFree entry.2) :
      NumberFree (.object entries)

namespace Reader

/-! ## Strings -/

section Strings

variable {cs rest text : List Char} {c : Char}

/-- A digit stands for less than sixteen. -/
theorem lt_of_hexDigit? {i : Nat} (h : hexDigit? c = some i) : i < 16 := by
  unfold hexDigit? at h
  have hzero : '0'.toNat = 48 := rfl
  have hlower : 'a'.toNat = 97 := rfl
  have hupper : 'A'.toNat = 65 := rfl
  split at h
  · next hc =>
    have hle : c.toNat ≤ 57 := hc.2
    cases h
    omega
  split at h
  · next hc =>
    have hle : c.toNat ≤ 102 := hc.2
    cases h
    omega
  split at h
  · next hc =>
    have hle : c.toNat ≤ 70 := hc.2
    cases h
    omega
  · cases h

/-- Four digits stand for less than sixteen to the fourth. -/
theorem lt_of_isUnit {u : Nat} (h : IsUnit text u) : u < 0x10000 := by
  obtain ⟨ha, hb, hc, hd⟩ := h
  have hi := lt_of_hexDigit? ha
  have hj := lt_of_hexDigit? hb
  have hk := lt_of_hexDigit? hc
  have hl := lt_of_hexDigit? hd
  omega

/-- A unit that is read is written in four digits. -/
theorem exists_isUnit_of_run {u : Nat} (h : run unit cs = .ok (u, rest)) :
    ∃ text, IsUnit text u ∧ cs = text ++ rest := by
  unfold run unit at h
  split at h
  · next a b c d ds =>
    split at h
    · next ha hb hc hd =>
      cases h
      exact ⟨[a, b, c, d], .intro ha hb hc hd, rfl⟩
    · cases h
  · cases h

/-- A fixed text that is read stands at the front. -/
theorem eq_append_of_run_exactly {u : Unit} (h : run (exactly text) cs = .ok (u, rest)) :
    cs = text ++ rest := by
  induction text generalizing cs with
  | nil =>
    cases h
    rfl
  | cons t text ih =>
    change run (char t >>= fun _ => exactly text) cs = _ at h
    rw [run_bind] at h
    obtain ⟨p, hchar, hrest⟩ := bind_eq_ok.mp h
    cases cs with
    | nil => cases hchar
    | cons d ds =>
      rw [run_char_cons] at hchar
      split at hchar
      · next hd =>
        cases hchar
        have htext : ds = text ++ rest := ih hrest
        rw [hd, htext, List.cons_append]
      · cases hchar

/-- A number that is no surrogate has a character. -/
theorem toNat_ofNat {n : Nat} (h : n < 0xD800 ∨ 0xDFFF < n ∧ n < 0x110000) :
    (Char.ofNat n).toNat = n := by
  rw [Char.ofNat, dif_pos h]
  rfl

/-- What is read behind `\u` is one unit of a character, or both. -/
theorem exists_isCharacter_of_run_unicodeEscape
    (h : run (unicodeEscape .kept) cs = .ok (c, rest)) :
    ∃ text, IsCharacter ('\\' :: 'u' :: text) c ∧ cs = text ++ rest := by
  rw [unicodeEscape, run_bind] at h
  obtain ⟨⟨u, after⟩, hunit, hafter⟩ := bind_eq_ok.mp h
  obtain ⟨leading, hleading, rfl⟩ := exists_isUnit_of_run hunit
  clear h
  dsimp only at hafter
  split at hafter
  · cases hafter
  next htrailing =>
  split at hafter
  · next hlead =>
    -- the first unit of a pair, so the second one follows
    rw [run_bind] at hafter
    obtain ⟨⟨mark, behind⟩, hmark, hbehind⟩ := bind_eq_ok.mp hafter
    clear hafter
    obtain rfl := eq_append_of_run_exactly hmark
    rw [run_bind] at hbehind
    obtain ⟨⟨v, last⟩, hsecond, hlast⟩ := bind_eq_ok.mp hbehind
    clear hbehind
    obtain ⟨trailing, htrail, rfl⟩ := exists_isUnit_of_run hsecond
    dsimp only at hlast
    split at hlast
    · next hv =>
      rw [run_pure, Except.ok.injEq, Prod.mk.injEq] at hlast
      obtain ⟨rfl, rfl⟩ := hlast
      simp only [isLeading, isTrailing, Bool.and_eq_true, decide_eq_true_eq] at hlead hv
      have hfirst : IsUnit leading (0xD800 + (u - 0xD800)) := by
        rwa [Nat.add_sub_cancel' hlead.1]
      have hsecond : IsUnit trailing (0xDC00 + (v - 0xDC00)) := by
        rwa [Nat.add_sub_cancel' hv.1]
      have hvalid : 0x10000 + (u - 0xD800) * 0x400 + (v - 0xDC00) < 0x110000 := by omega
      have hchar := toNat_ofNat (.inr ⟨by omega, hvalid⟩)
      have hpair := IsCharacter.pair hfirst hsecond (by omega) (by omega) hchar
      exact ⟨leading ++ '\\' :: 'u' :: trailing, hpair, by simp⟩
    · cases hlast
  · next hlead =>
    rw [run_pure, Except.ok.injEq, Prod.mk.injEq] at hafter
    obtain ⟨rfl, rfl⟩ := hafter
    have hlt := lt_of_isUnit hleading
    simp only [isLeading, isTrailing, Bool.and_eq_true, decide_eq_true_eq] at htrailing hlead
    refine ⟨leading, .unit ?_, rfl⟩
    rwa [toNat_ofNat (by omega)]

/-- An escape that is read spells the character. -/
theorem exists_isCharacter_of_run_escape (h : run (escape .kept) cs = .ok (c, rest)) :
    ∃ text, IsCharacter ('\\' :: text) c ∧ cs = text ++ rest := by
  cases cs with
  | nil => cases h
  | cons letter cs =>
    cases hletter : shortEscape? letter with
    | some d =>
      rw [run_escape_short hletter] at h
      cases h
      exact ⟨[letter], .short hletter, rfl⟩
    | none =>
      by_cases hu : letter = 'u'
      · subst hu
        rw [run_escape_unicode] at h
        obtain ⟨text, hcharacter, rfl⟩ := exists_isCharacter_of_run_unicodeEscape h
        exact ⟨'u' :: text, hcharacter, rfl⟩
      · simp only [run, escape, hletter, if_neg hu] at h
        cases h

/-- A control character is refused. -/
theorem run_contents_control (hquote : c ≠ '"') (hescape : c ≠ '\\') (hcontrol : c < ' ')
    (cs : List Char) : run (contents .kept) (c :: cs) = .error .malformed := by
  unfold run contents
  rw [characters, if_neg hquote, if_neg hescape, if_pos hcontrol]
  rfl

/-- The contents of a string that is read spell it. -/
theorem exists_isCharacters_of_run {value : List Char}
    (h : run (contents .kept) cs = .ok (value, rest)) :
    ∃ text, IsCharacters text value ∧ cs = text ++ '"' :: rest := by
  induction hlength : cs.length using Nat.strong_induction_on generalizing cs value with
  | _ n ih =>
    cases cs with
    | nil =>
      unfold run contents at h
      rw [characters] at h
      cases h
    | cons c cs =>
      by_cases hquote : c = '"'
      · subst hquote
        rw [run_contents_closed] at h
        cases h
        exact ⟨[], .nil, rfl⟩
      by_cases hescape : c = '\\'
      · subst hescape
        rw [run_contents_escaped] at h
        obtain ⟨⟨first, after⟩, hfirst, h⟩ := bind_eq_ok.mp h
        obtain ⟨⟨more, last⟩, hmore, h⟩ := bind_eq_ok.mp h
        cases h
        obtain ⟨text, hcharacter, rfl⟩ := exists_isCharacter_of_run_escape hfirst
        have hshorter : after.length < n := by
          simp only [List.length_cons, List.length_append] at hlength
          omega
        obtain ⟨texts, hcharacters, rfl⟩ := ih after.length hshorter hmore rfl
        exact ⟨'\\' :: text ++ texts, .cons hcharacter hcharacters, by simp⟩
      by_cases hcontrol : c < ' '
      · rw [run_contents_control hquote hescape hcontrol] at h
        cases h
      · rw [Char.not_lt] at hcontrol
        rw [run_contents_plain hquote hescape hcontrol] at h
        obtain ⟨⟨more, last⟩, hmore, h⟩ := bind_eq_ok.mp h
        cases h
        obtain ⟨texts, hcharacters, rfl⟩ := ih cs.length (by simp at hlength; omega) hmore rfl
        exact ⟨[c] ++ texts, .cons (.plain hquote hescape hcontrol) hcharacters, rfl⟩

/-- A string that is read is spelled by the text. -/
theorem exists_isString_of_run {s : String} (h : run (quoted .kept) cs = .ok (s, rest)) :
    ∃ text, IsString text s ∧ cs = text ++ rest := by
  cases cs with
  | nil => cases h
  | cons c cs =>
    by_cases hquote : c = '"'
    · subst hquote
      rw [run_quoted] at h
      obtain ⟨⟨value, after⟩, hvalue, h⟩ := bind_eq_ok.mp h
      cases h
      obtain ⟨text, hcharacters, rfl⟩ := exists_isCharacters_of_run hvalue
      exact ⟨'"' :: text ++ ['"'], .intro hcharacters, by simp⟩
    · rw [quoted, run_bind, run_char_cons, if_neg hquote] at h
      cases h

end Strings

/-! ## Values -/

section Values

variable {α : Type} {levels : Nat} {cs rest : List Char}

/-- A text is white space, then what a rule derives for a value, then a rest. -/
def Spells (rule : List Char → α → Prop) (cs : List Char) (a : α) (rest : List Char) : Prop :=
  ∃ space text, IsSpace space ∧ rule text a ∧ cs = space ++ (text ++ rest)

theorem exists_isSpace_append (cs : List Char) :
    ∃ space, IsSpace space ∧ cs = space ++ dropLayout cs :=
  ⟨cs.takeWhile isLayout, fun _ hc => List.mem_takeWhile_imp hc,
    List.takeWhile_append_dropWhile.symm⟩

theorem Spells.of_dropLayout {rule : List Char → α → Prop} {text : List Char} {a : α}
    (h : rule text a) (hcs : dropLayout cs = text ++ rest) : Spells rule cs a rest := by
  obtain ⟨space, hspace, heq⟩ := exists_isSpace_append cs
  exact ⟨space, text, hspace, h, hcs ▸ heq⟩

/-- A reader that takes a given text and gives a fixed value. -/
theorem eq_append_of_run_fixed {text : List Char} {v v' : Value}
    (h : run (exactly text >>= fun _ => pure v) cs = .ok (v', rest)) :
    v' = v ∧ cs = text ++ rest := by
  rw [run_bind] at h
  obtain ⟨⟨_, after⟩, htext, hv⟩ := bind_eq_ok.mp h
  cases hv
  exact ⟨rfl, eq_append_of_run_exactly htext⟩

/-- A value without parts that is read is spelled by the text. -/
theorem exists_isValue_of_run_scalar {c : Char} {v : Value}
    (h : run (scalar .kept c) (c :: cs) = .ok (v, rest)) (hfree : v.NumberFree) :
    ∃ text, IsValue text v ∧ c :: cs = text ++ rest := by
  by_cases hnumber : c = '-' ∨ c.isDigit = true
  · rw [scalar, if_pos hnumber] at h
    rw [eq_of_run_pure h] at hfree
    cases hfree
  · have hnext : run next (c :: cs) = .ok (some c, c :: cs) := rfl
    rw [scalar, if_neg hnumber, word, run_bind, hnext, ok_bind] at h
    split at h
    · obtain ⟨rfl, hcs⟩ := eq_append_of_run_fixed h
      exact ⟨_, .null, hcs⟩
    · obtain ⟨rfl, hcs⟩ := eq_append_of_run_fixed h
      exact ⟨_, .truth, hcs⟩
    · obtain ⟨rfl, hcs⟩ := eq_append_of_run_fixed h
      exact ⟨_, .falsity, hcs⟩
    · cases h
    · cases h

theorem spells_of_run_unnested {v : Value} {c : Char} {ds : List Char}
    (hcs : dropLayout cs = c :: ds) (hbracket : c ≠ '[') (hbrace : c ≠ '\x7b')
    (h : run (value .kept levels) cs = .ok (v, rest)) (hfree : v.NumberFree) :
    Spells IsValue cs v rest := by
  by_cases hquote : c = '"'
  · subst hquote
    rw [run_value_text hcs] at h
    obtain ⟨⟨s, after⟩, hs, hafter⟩ := bind_eq_ok.mp h
    cases hafter
    obtain ⟨text, hstring, htext⟩ := exists_isString_of_run hs
    exact .of_dropLayout (.text hstring) (hcs.trans htext)
  · have hscalar : beginsScalar c = true := by simp [beginsScalar, hquote, hbracket, hbrace]
    rw [run_value_scalar hcs hscalar] at h
    obtain ⟨text, hvalue, htext⟩ := exists_isValue_of_run_scalar h hfree
    exact .of_dropLayout hvalue (hcs.trans htext)

section Nested

variable (hinner : ∀ {cs rest : List Char} {v : Value},
  run (value .kept levels) cs = .ok (v, rest) → v.NumberFree → Spells IsValue cs v rest)

include hinner

/-- Items that are read behind commas are spelled by the text, up to the bracket. -/
theorem exists_isMoreItems_of_run {vs : List Value}
    (h : run (later (value .kept levels)) cs = .ok (vs, rest))
    (hfree : ∀ v ∈ vs, v.NumberFree) :
    ∃ text space, IsMoreItems text vs ∧ IsSpace space ∧ cs = text ++ (space ++ ']' :: rest) := by
  induction hlength : cs.length using Nat.strong_induction_on generalizing cs vs with
  | _ n ih =>
    obtain ⟨space, hspace, hstart⟩ := exists_isSpace_append cs
    rw [run_later] at h
    cases hcs : dropLayout cs with
    | nil =>
      rw [hcs] at h
      cases h
    | cons c ds =>
      rw [hcs] at h hstart
      dsimp only at h
      split at h
      · next hclosed =>
        subst hclosed
        cases h
        exact ⟨[], space, .nil, hspace, hstart⟩
      split at h
      · next hcomma =>
        subst hcomma
        obtain ⟨⟨v, after⟩, hv, hafter⟩ := bind_eq_ok.mp h
        obtain ⟨⟨more, last⟩, hmore, hlast⟩ := bind_eq_ok.mp hafter
        cases hlast
        obtain ⟨hitem, hitems⟩ := List.forall_mem_cons.mp hfree
        have hshorter : after.length < n := by
          have hds := length_lt_of_dropLayout hcs
          have hle := length_le_of_run hv
          omega
        obtain ⟨behind, text, hbehind, hvalue, rfl⟩ := hinner hv hitem
        obtain ⟨texts, closing, htexts, hclosing, rfl⟩ := ih after.length hshorter hmore hitems rfl
        exact ⟨_, closing, .cons hspace hbehind hvalue htexts, hclosing, by simp [hstart]⟩
      · cases h

/-- A member that is read is spelled by the text. -/
theorem exists_isMember_of_run {entries all : List (String × Value)}
    (h : run (entry levels entries) cs = .ok (all, rest)) :
    ∃ new, all = entries ++ [new] ∧ (new.2.NumberFree → Spells IsMember cs new rest) := by
  rw [run_entry] at h
  obtain ⟨⟨key, afterKey⟩, hkey, hbehindKey⟩ := bind_eq_ok.mp h
  obtain ⟨⟨_, afterColon⟩, hcolon, hbehindColon⟩ := bind_eq_ok.mp hbehindKey
  obtain ⟨⟨v, afterValue⟩, hvalue, hall⟩ := bind_eq_ok.mp hbehindColon
  cases hall
  refine ⟨(key, v), rfl, fun hfree => ?_⟩
  obtain ⟨name, hname, hstart⟩ := exists_isString_of_run hkey
  obtain ⟨before, hbefore, hmark⟩ := exists_isSpace_append afterKey
  obtain ⟨after, text, hafter, hspelled, rfl⟩ := hinner hvalue hfree
  rw [run_mark] at hcolon
  cases hcs : dropLayout afterKey with
  | nil =>
    rw [hcs] at hcolon
    cases hcolon
  | cons c ds =>
    rw [hcs, run_char_cons] at hcolon
    rw [hcs] at hmark
    split at hcolon
    · next hc =>
      subst hc
      cases hcolon
      refine .of_dropLayout (.intro hname hbefore hafter hspelled) ?_
      rw [hstart, hmark]
      simp
    · cases hcolon

/-- Members that are read behind commas are spelled by the text, up to the brace. -/
theorem exists_isMoreMembers_of_run {entries all : List (String × Value)}
    (h : run (laterMembers (entry levels) entries) cs = .ok (all, rest)) :
    ∃ new, all = entries ++ new ∧ ((∀ entry ∈ new, entry.2.NumberFree) → ∃ text space,
      IsMoreMembers text new ∧ IsSpace space ∧ cs = text ++ (space ++ '\x7d' :: rest)) := by
  induction hlength : cs.length using Nat.strong_induction_on generalizing cs entries with
  | _ n ih =>
    obtain ⟨space, hspace, hstart⟩ := exists_isSpace_append cs
    rw [run_laterMembers] at h
    cases hcs : dropLayout cs with
    | nil =>
      rw [hcs] at h
      cases h
    | cons c ds =>
      rw [hcs] at h hstart
      dsimp only at h
      split at h
      · next hclosed =>
        subst hclosed
        cases h
        exact ⟨[], (List.append_nil _).symm, fun _ => ⟨[], space, .nil, hspace, hstart⟩⟩
      split at h
      · next hcomma =>
        subst hcomma
        obtain ⟨⟨entries', after⟩, hentry, hmore⟩ := bind_eq_ok.mp h
        have hshorter : after.length < n := by
          have hds := length_lt_of_dropLayout hcs
          have hle := length_le_of_run hentry
          omega
        obtain ⟨new, rfl, hmember⟩ := exists_isMember_of_run hinner hentry
        obtain ⟨more, rfl, hmembers⟩ := ih after.length hshorter hmore rfl
        refine ⟨new :: more, by simp, fun hfree => ?_⟩
        obtain ⟨hnew, hmorefree⟩ := List.forall_mem_cons.mp hfree
        obtain ⟨behind, text, hbehind, hspelled, rfl⟩ := hmember hnew
        obtain ⟨texts, closing, htexts, hclosing, rfl⟩ := hmembers hmorefree
        exact ⟨_, closing, .cons hspace hbehind hspelled htexts, hclosing, by simp [hstart]⟩
      · cases h

/-- A list that is read is spelled by the text. -/
theorem exists_isValue_of_run_elements {items : List Value}
    (h : run (elements (value .kept levels)) cs = .ok (items, rest))
    (hfree : ∀ v ∈ items, v.NumberFree) :
    ∃ text, IsValue text (.list items) ∧ '[' :: cs = text ++ rest := by
  by_cases hclosed : (dropLayout cs).head? = some ']'
  · obtain ⟨ds, hcs⟩ := List.head?_eq_some_iff.mp hclosed
    rw [run_elements_nil hcs] at h
    cases h
    obtain ⟨space, hspace, hstart⟩ := exists_isSpace_append cs
    rw [hcs] at hstart
    exact ⟨_, .emptyList hspace, by simp [hstart]⟩
  · rw [run_elements hclosed, run_value_dropLayout] at h
    obtain ⟨⟨v, after⟩, hv, hafter⟩ := bind_eq_ok.mp h
    obtain ⟨⟨more, last⟩, hmore, hlast⟩ := bind_eq_ok.mp hafter
    cases hlast
    obtain ⟨hitem, hitems⟩ := List.forall_mem_cons.mp hfree
    obtain ⟨before, text, hbefore, hvalue, rfl⟩ := hinner hv hitem
    obtain ⟨texts, closing, htexts, hclosing, rfl⟩ :=
      exists_isMoreItems_of_run hinner hmore hitems
    exact ⟨_, .list hbefore hvalue htexts hclosing, by simp⟩

/-- An object that is read is spelled by the text. -/
theorem exists_isValue_of_run_members {entries : List (String × Value)}
    (h : run (members (entry levels) []) cs = .ok (entries, rest))
    (hfree : ∀ entry ∈ entries, entry.2.NumberFree) :
    ∃ text, IsValue text (.object entries) ∧ '\x7b' :: cs = text ++ rest := by
  by_cases hclosed : (dropLayout cs).head? = some '\x7d'
  · obtain ⟨ds, hcs⟩ := List.head?_eq_some_iff.mp hclosed
    rw [run_members_nil hcs] at h
    cases h
    obtain ⟨space, hspace, hstart⟩ := exists_isSpace_append cs
    rw [hcs] at hstart
    exact ⟨_, .emptyObject hspace, by simp [hstart]⟩
  · rw [run_members hclosed, run_entry_dropLayout] at h
    obtain ⟨⟨_, after⟩, hfirst, hafter⟩ := bind_eq_ok.mp h
    obtain ⟨new, rfl, hmember⟩ := exists_isMember_of_run hinner hfirst
    obtain ⟨more, rfl, hmembers⟩ := exists_isMoreMembers_of_run hinner hafter
    obtain ⟨hnew, hmorefree⟩ := List.forall_mem_cons.mp hfree
    obtain ⟨before, text, hbefore, hspelled, rfl⟩ := hmember hnew
    obtain ⟨texts, closing, htexts, hclosing, rfl⟩ := hmembers hmorefree
    exact ⟨_, .object hbefore hspelled htexts hclosing, by simp⟩

end Nested

/-- **What is read is a spelling.** A value without numbers that is read off the front of a text is
spelled there, behind white space. -/
theorem spells_of_run_value {v : Value} (h : run (value .kept levels) cs = .ok (v, rest))
    (hfree : v.NumberFree) : Spells IsValue cs v rest := by
  induction levels generalizing cs rest v with
  | zero =>
    cases hcs : dropLayout cs with
    | nil =>
      rw [run_value_nil hcs] at h
      cases h
    | cons c ds =>
      by_cases hnested : c = '[' ∨ c = '\x7b'
      · rw [run_value_zero hcs hnested] at h
        cases h
      · obtain ⟨hbracket, hbrace⟩ := not_or.mp hnested
        exact spells_of_run_unnested hcs hbracket hbrace h hfree
  | succ levels ih =>
    cases hcs : dropLayout cs with
    | nil =>
      rw [run_value_nil hcs] at h
      cases h
    | cons c ds =>
      by_cases hbracket : c = '['
      · subst hbracket
        rw [run_value_list hcs] at h
        obtain ⟨⟨items, after⟩, hitems, hafter⟩ := bind_eq_ok.mp h
        cases hafter
        cases hfree with
        | list hfree =>
          obtain ⟨text, hvalue, htext⟩ := exists_isValue_of_run_elements ih hitems hfree
          exact .of_dropLayout hvalue (hcs.trans htext)
      by_cases hbrace : c = '\x7b'
      · subst hbrace
        rw [run_value_object hcs] at h
        obtain ⟨⟨entries, after⟩, hentries, hafter⟩ := bind_eq_ok.mp h
        cases hafter
        cases hfree with
        | object hfree =>
          obtain ⟨text, hvalue, htext⟩ := exists_isValue_of_run_members ih hentries hfree
          exact .of_dropLayout hvalue (hcs.trans htext)
      · exact spells_of_run_unnested hcs hbracket hbrace h hfree

/-- A document that is read as a value without numbers is a spelling of it. -/
theorem isDocument_of_document {text : String} {v : Value}
    (h : (value .kept levels).document text = .ok v) (hfree : v.NumberFree) :
    IsDocument text.toList v := by
  rw [document_eq] at h
  obtain ⟨⟨v', after⟩, hv, hafter⟩ := bind_eq_ok.mp h
  split at hafter
  · next hempty =>
    cases hafter
    obtain ⟨before, spelling, hbefore, hvalue, htext⟩ := spells_of_run_value hv hfree
    obtain ⟨space, hspace, hrest⟩ := exists_isSpace_append after
    rw [List.isEmpty_iff.mp hempty, List.append_nil] at hrest
    rw [htext, hrest, ← List.append_assoc]
    exact .intro hbefore hvalue hspace
  · cases hafter

end Values

end Reader

end FilterScope.Json
