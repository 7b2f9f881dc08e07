import FilterScope.Json.Grammar
import FilterScope.Proofs.Json.Value

/-!
# Every spelling of a value is read

A value that is spelled at the front of a text is read off it, and the reader stops where the
spelling ends (`run_value_of_isValue`). The proof follows the derivation. It asks nothing of the
text behind the value, because every value shows its end: strings, lists and objects by a closing
mark, words by their length.

How often white space may occur is no matter either, because every reader skips it before it looks
at the next character; so a place where it may stand costs one rewriting (`run_value_space`,
`run_later_comma` and those like them).
-/

namespace FilterScope.Json

open Text

namespace Reader

/-! ## Strings are read -/

section Strings

variable {care : Care}

/-- The characters of a string, from behind its opening quote through its closing one. -/
def contents (care : Care) : Reader (List Char) := fun cs =>
  (characters care cs).map (·.weaken)

/-- A string is read by its contents. -/
theorem run_quoted (care : Care) (cs : List Char) :
    run (quoted care) ('"' :: cs) = run (contents care) cs >>= fun p =>
      .ok (String.ofList p.1, p.2) := by
  change run (char '"' >>= fun _ => contents care >>= fun text => pure (String.ofList text)) _ = _
  simp

/-- The contents of a string end at a quote. -/
theorem run_contents_closed (care : Care) (cs : List Char) :
    run (contents care) ('"' :: cs) = .ok ([], cs) := by
  simp [run, contents, characters, Except.map, Reading.one, Reading.weaken]

/-- Behind a backslash an escape is read. -/
theorem run_contents_escaped (care : Care) (cs : List Char) :
    run (contents care) ('\\' :: cs) = run (escape care) cs >>= fun p =>
      run (contents care) p.2 >>= fun q => .ok (p.1 :: q.1, q.2) := by
  unfold run contents
  rw [characters, if_neg (by decide), if_pos rfl]
  cases escape care cs with
  | error fault => rfl
  | ok first =>
    cases hmore : characters care first.rest with
    | error fault => simp [Except.map, hmore]
    | ok more => simp [Except.map, hmore, Reading.weaken, Reading.andThen, Reading.map]

/-- Any other character stands for itself, if it is no control character. -/
theorem run_contents_plain {c : Char} (hquote : c ≠ '"') (hescape : c ≠ '\\') (hcontrol : ' ' ≤ c)
    (cs : List Char) : run (contents care) (c :: cs) = run (contents care) cs >>= fun q =>
      .ok (c :: q.1, q.2) := by
  unfold run contents
  rw [characters, if_neg hquote, if_neg hescape, if_neg (Char.not_lt.mpr hcontrol)]
  cases characters care cs with
  | error fault => rfl
  | ok more => rfl

/-- A letter that escapes a character is read as that character. -/
theorem run_escape_short {letter c : Char} (h : shortEscape? letter = some c) (cs : List Char) :
    run (escape care) (letter :: cs) = .ok (c, cs) := by
  simp [run, escape, h, Except.map, Reading.one, Reading.weaken]

theorem run_escape_unicode (care : Care) (cs : List Char) :
    run (escape care) ('u' :: cs) = run (unicodeEscape care) cs := by
  have hletter : shortEscape? 'u' = none := rfl
  simp only [run, escape, hletter, if_pos]
  cases unicodeEscape care cs <;> rfl

/-- A fixed text is read where it stands. -/
theorem run_exactly (text rest : List Char) :
    run (exactly text) (text ++ rest) = .ok ((), rest) := by
  induction text with
  | nil => rfl
  | cons c text ih =>
    change run (char c >>= fun _ => exactly text) (c :: (text ++ rest)) = _
    rw [run_bind, run_char_self, ok_bind, ih]

/-- Four digits are read as a unit. -/
theorem run_unit {text : List Char} {u : Nat} (h : IsUnit text u) (rest : List Char) :
    run unit (text ++ rest) = .ok (u, rest) := by
  obtain ⟨ha, hb, hc, hd⟩ := h
  simp [run, unit, ha, hb, hc, hd, Except.map, Reading.nothing, Reading.weaken]

/-- The unit of a character is no half of a pair. -/
theorem isTrailing_toNat (c : Char) : isTrailing c.toNat = false ∧ isLeading c.toNat = false := by
  have hvalid : c.toNat < 0xD800 ∨ 0xDFFF < c.toNat ∧ c.toNat < 0x110000 := c.valid
  simp only [isTrailing, isLeading, Bool.and_eq_false_iff, decide_eq_false_iff_not]
  omega

/-- A unit that is a character on its own is read as it. -/
theorem run_unicodeEscape_unit {text : List Char} {c : Char} (h : IsUnit text c.toNat)
    (rest : List Char) : run (unicodeEscape .kept) (text ++ rest) = .ok (c, rest) := by
  obtain ⟨htrailing, hleading⟩ := isTrailing_toNat c
  rw [unicodeEscape, run_bind, run_unit h, ok_bind]
  simp [htrailing, hleading, Char.ofNat_toNat]

/-- A pair of surrogates is read as one character. -/
theorem run_unicodeEscape_pair {leading trailing : List Char} {high low : Nat} {c : Char}
    (hleading : IsUnit leading (0xD800 + high)) (htrailing : IsUnit trailing (0xDC00 + low))
    (hhigh : high < 0x400) (hlow : low < 0x400) (hc : c.toNat = 0x10000 + high * 0x400 + low)
    (rest : List Char) :
    run (unicodeEscape .kept) (leading ++ '\\' :: 'u' :: trailing ++ rest) = .ok (c, rest) := by
  have hfirst : isTrailing (0xD800 + high) = false ∧ isLeading (0xD800 + high) = true := by
    simp only [isTrailing, isLeading, Bool.and_eq_false_iff, Bool.and_eq_true, decide_eq_true_eq,
      decide_eq_false_iff_not]
    omega
  have hsecond : isTrailing (0xDC00 + low) = true := by
    simp only [isTrailing, Bool.and_eq_true, decide_eq_true_eq]
    omega
  have hchar : Char.ofNat (0x10000 + (0xD800 + high - 0xD800) * 0x400 + (0xDC00 + low - 0xDC00)) =
      c := by
    rw [Nat.add_sub_cancel_left, Nat.add_sub_cancel_left, ← hc, Char.ofNat_toNat]
  have hmark : run (exactly ['\\', 'u']) ('\\' :: 'u' :: (trailing ++ rest)) =
      .ok ((), trailing ++ rest) := run_exactly _ _
  rw [unicodeEscape, run_bind, List.append_assoc, run_unit hleading, ok_bind]
  simp only [hfirst, Bool.false_eq_true, if_false, if_true, run_bind, List.cons_append, hmark,
    ok_bind, run_unit htrailing, hsecond, run_pure, hchar]

/-- The first character of a string is read, then the others. -/
theorem run_contents_character {text : List Char} {c : Char} (h : IsCharacter text c)
    (rest : List Char) :
    run (contents .kept) (text ++ rest) = run (contents .kept) rest >>= fun q =>
      .ok (c :: q.1, q.2) := by
  cases h with
  | plain hquote hescape hcontrol => exact run_contents_plain hquote hescape hcontrol rest
  | short hletter =>
    simp only [List.cons_append, List.nil_append, run_contents_escaped, run_escape_short hletter,
      ok_bind]
  | unit hunit =>
    simp only [List.cons_append, run_contents_escaped, run_escape_unicode,
      run_unicodeEscape_unit hunit, ok_bind]
  | pair hleading htrailing hhigh hlow hc =>
    simp only [List.cons_append, run_contents_escaped, run_escape_unicode,
      run_unicodeEscape_pair hleading htrailing hhigh hlow hc, ok_bind]

/-- Written characters are read up to the closing quote. -/
theorem run_contents_of_isCharacters {text value : List Char} (h : IsCharacters text value)
    (rest : List Char) : run (contents .kept) (text ++ '"' :: rest) = .ok (value, rest) := by
  induction h with
  | nil => exact run_contents_closed .kept rest
  | cons hfirst _ ih => rw [List.append_assoc, run_contents_character hfirst, ih, ok_bind]

/-- A written string is read whole. -/
theorem run_quoted_of_isString {text : List Char} {s : String} (h : IsString text s)
    (rest : List Char) : run (quoted .kept) (text ++ rest) = .ok (s, rest) := by
  obtain ⟨hcharacters⟩ := h
  simp only [List.cons_append, List.append_assoc, List.nil_append, run_quoted,
    run_contents_of_isCharacters hcharacters, ok_bind]

end Strings

/-! ## Values are read -/

section Values

variable {space text : List Char} {levels : Nat}

theorem dropLayout_space_cons (hspace : IsSpace space) {c : Char} (hc : isLayout c = false)
    (rest : List Char) : dropLayout (space ++ c :: rest) = c :: rest :=
  dropLayout_append_of_stops hspace (stops_cons.mpr hc)

/-- A string begins with a quote. -/
theorem exists_cons_of_isString {s : String} (h : IsString text s) :
    ∃ more, text = '"' :: more := by
  obtain ⟨hcharacters⟩ := h
  exact ⟨_, rfl⟩

/-- A value begins with a character that is no white space and closes no list. -/
theorem exists_cons_of_isValue {v : Value} (h : IsValue text v) :
    ∃ c more, text = c :: more ∧ isLayout c = false ∧ c ≠ ']' := by
  cases h with
  | text hstring =>
    obtain ⟨more, rfl⟩ := exists_cons_of_isString hstring
    exact ⟨'"', more, rfl, by decide, by decide⟩
  | _ => exact ⟨_, _, rfl, by decide, by decide⟩

theorem exists_cons_of_isMember {entry : String × Value} (h : IsMember text entry) :
    ∃ more, text = '"' :: more := by
  obtain ⟨hkey, -, -, -⟩ := h
  obtain ⟨more, rfl⟩ := exists_cons_of_isString hkey
  exact ⟨_, rfl⟩

/-- Space in front of a value is passed over. -/
theorem run_value_space (hspace : IsSpace space) (cs : List Char) :
    run (value .kept levels) (space ++ cs) = run (value .kept levels) cs := by
  rw [← run_value_dropLayout, dropLayout_append hspace, run_value_dropLayout]

theorem run_entry_dropLayout (entries : List (String × Value)) (cs : List Char) :
    run (entry levels entries) (dropLayout cs) = run (entry levels entries) cs := by
  rw [run_entry, dropLayout_dropLayout, ← run_entry]

theorem run_entry_space (hspace : IsSpace space) (entries : List (String × Value))
    (cs : List Char) :
    run (entry levels entries) (space ++ cs) = run (entry levels entries) cs := by
  rw [← run_entry_dropLayout, dropLayout_append hspace, run_entry_dropLayout]

section Loops

variable {α σ : Type}

/-- A list ends at its bracket. -/
theorem run_later_closed (hspace : IsSpace space) (read : Reader α) (rest : List Char) :
    run (later read) (space ++ ']' :: rest) = .ok ([], rest) := by
  rw [run_later, dropLayout_space_cons hspace (by decide)]
  rfl

/-- Behind a comma one more item is read. -/
theorem run_later_comma (hspace : IsSpace space) (read : Reader α) (rest : List Char) :
    run (later read) (space ++ ',' :: rest) = run read rest >>= fun p =>
      run (later read) p.2 >>= fun q => .ok (p.1 :: q.1, q.2) := by
  rw [run_later, dropLayout_space_cons hspace (by decide)]
  rfl

/-- An object ends at its brace. -/
theorem run_laterMembers_closed (hspace : IsSpace space) (read : σ → Reader σ) (state : σ)
    (rest : List Char) : run (laterMembers read state) (space ++ '\x7d' :: rest) =
      .ok (state, rest) := by
  rw [run_laterMembers, dropLayout_space_cons hspace (by decide)]
  rfl

/-- Behind a comma one more member is read. -/
theorem run_laterMembers_comma (hspace : IsSpace space) (read : σ → Reader σ) (state : σ)
    (rest : List Char) : run (laterMembers read state) (space ++ ',' :: rest) =
      run (read state) rest >>= fun p => run (laterMembers read p.1) p.2 := by
  rw [run_laterMembers, dropLayout_space_cons hspace (by decide)]
  rfl

end Loops

mutual

/-- A value that is spelled at the front of a text is read off it. -/
theorem run_value_of_isValue {text : List Char} {v : Value} {levels : Nat} :
    IsValue text v → v.NestedWithin levels → ∀ rest : List Char,
      run (value .kept levels) (text ++ rest) = .ok (v, rest)
  | .null, _, _ => (run_value_scalar rfl rfl).trans rfl
  | .truth, _, _ => (run_value_scalar rfl rfl).trans rfl
  | .falsity, _, _ => (run_value_scalar rfl rfl).trans rfl
  | .text hstring, _, rest => by
    have hquoted := run_quoted_of_isString hstring rest
    obtain ⟨more, rfl⟩ := exists_cons_of_isString hstring
    rw [List.cons_append] at hquoted ⊢
    rw [run_value_text rfl, hquoted, ok_bind]
  | .emptyList hspace, .list _, rest => by
    simp only [List.cons_append, List.append_assoc, List.nil_append]
    rw [run_value_list rfl, run_elements_nil (dropLayout_space_cons hspace (by decide) rest),
      ok_bind]
  | .list hbefore hfirst hmore hafter, .list hitems, rest => by
    obtain ⟨hitem, hitems⟩ := List.forall_mem_cons.mp hitems
    simp only [List.cons_append, List.append_assoc, List.nil_append]
    obtain ⟨c, more, htext, hlayout, hopen⟩ := exists_cons_of_isValue hfirst
    rw [run_value_list rfl, run_elements, run_value_dropLayout, run_value_space hbefore,
      run_value_of_isValue hfirst hitem, ok_bind,
      run_later_of_isMoreItems hmore hitems hafter, ok_bind, ok_bind]
    -- the list is not closed before its first item
    rw [htext, List.cons_append, dropLayout_space_cons hbefore hlayout]
    simpa using hopen
  | .emptyObject hspace, .object _, rest => by
    simp only [List.cons_append, List.append_assoc, List.nil_append]
    rw [run_value_object rfl, run_members_nil (dropLayout_space_cons hspace (by decide) rest),
      ok_bind]
  | .object hbefore hfirst hmore hafter, .object hentries, rest => by
    obtain ⟨hentry, hentries⟩ := List.forall_mem_cons.mp hentries
    simp only [List.cons_append, List.append_assoc, List.nil_append]
    obtain ⟨more, htext⟩ := exists_cons_of_isMember hfirst
    rw [run_value_object rfl]
    change run (members (entry _) []) _ >>= _ = _
    rw [run_members, run_entry_dropLayout, run_entry_space hbefore,
      run_entry_of_isMember hfirst hentry, ok_bind,
      run_laterMembers_of_isMoreMembers hmore hentries _ hafter, ok_bind, List.nil_append,
      List.singleton_append]
    -- nor is the object before its first member
    rw [htext, List.cons_append, dropLayout_space_cons hbefore (by decide)]
    simp

/-- The items of a list after its first one are read, up to its closing bracket. -/
theorem run_later_of_isMoreItems {text : List Char} {vs : List Value} {levels : Nat} :
    IsMoreItems text vs → (∀ v ∈ vs, v.NestedWithin levels) → ∀ {space : List Char},
      IsSpace space → ∀ rest : List Char,
        run (later (value .kept levels)) (text ++ (space ++ ']' :: rest)) = .ok (vs, rest)
  | .nil, _, _, hspace, rest => run_later_closed hspace _ rest
  | .cons hbefore hafter hvalue hmore, hitems, _, hspace, rest => by
    obtain ⟨hitem, hitems⟩ := List.forall_mem_cons.mp hitems
    simp only [List.cons_append, List.append_assoc]
    rw [run_later_comma hbefore, run_value_space hafter, run_value_of_isValue hvalue hitem, ok_bind,
      run_later_of_isMoreItems hmore hitems hspace, ok_bind]

/-- A member is read and added to those before it. -/
theorem run_entry_of_isMember {text : List Char} {new : String × Value} {levels : Nat} :
    IsMember text new → new.2.NestedWithin levels →
      ∀ (entries : List (String × Value)) (rest : List Char),
        run (entry levels entries) (text ++ rest) = .ok (entries ++ [new], rest)
  | .intro hkey hbefore hafter hvalue, hlevels, entries, rest => by
    simp only [List.cons_append, List.append_assoc]
    have hname := run_quoted_of_isString hkey
    obtain ⟨more, rfl⟩ := exists_cons_of_isString hkey
    have hstart (cs : List Char) : dropLayout ('"' :: more ++ cs) = '"' :: more ++ cs := rfl
    rw [run_entry, hstart, hname, ok_bind, run_mark,
      dropLayout_space_cons hbefore (by decide), run_char_self, ok_bind, run_value_space hafter,
      run_value_of_isValue hvalue hlevels, ok_bind]

/-- The members of an object after its first one are read, up to its closing brace. -/
theorem run_laterMembers_of_isMoreMembers {text : List Char} {more : List (String × Value)}
    {levels : Nat} : IsMoreMembers text more → (∀ new ∈ more, new.2.NestedWithin levels) →
      ∀ (entries : List (String × Value)) {space : List Char}, IsSpace space →
        ∀ rest : List Char, run (laterMembers (entry levels) entries)
          (text ++ (space ++ '\x7d' :: rest)) = .ok (entries ++ more, rest)
  | .nil, _, entries, _, hspace, rest => by
    rw [List.append_nil]
    exact run_laterMembers_closed hspace _ _ rest
  | .cons hbefore hafter hmember hmore, hlevels, entries, _, hspace, rest => by
    obtain ⟨hnew, hlevels⟩ := List.forall_mem_cons.mp hlevels
    simp only [List.cons_append, List.append_assoc]
    rw [run_laterMembers_comma hbefore, run_entry_space hafter, run_entry_of_isMember hmember hnew,
      ok_bind, run_laterMembers_of_isMoreMembers hmore hlevels _ hspace, List.append_assoc,
      List.singleton_append]

end

/-- **Spellings.** A text that spells a value is read as that value, if the value is not nested too
deep. -/
theorem document_of_isDocument {text : String} {v : Value} (h : IsDocument text.toList v)
    (hlevels : v.NestedWithin levels) : (value .kept levels).document text = .ok v := by
  generalize htext : text.toList = cs at h
  obtain ⟨hbefore, hvalue, hafter⟩ := h
  rw [document_eq, htext, List.append_assoc, run_value_space hbefore,
    run_value_of_isValue hvalue hlevels, ok_bind, dropLayout_eq_nil hafter]
  rfl

end Values

end Reader

end FilterScope.Json
