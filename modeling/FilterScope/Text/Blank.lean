/-!
# Blank characters

Two notions of white space meet in a filter, and they are not the same set.

* **Blank** characters are those with the Unicode property `White_Space`. A filter made of them
  alone asks nothing, and none of them can stand in a bare word.
* **Layout** characters are the four that may be written between the parts of a filter: space, tab,
  carriage return and line feed. Every layout character is blank (`isBlank_of_isLayout`), but a
  blank character such as U+00A0 is neither layout nor part of a word, so it can stand nowhere
  in a filter outside quotes.
-/

namespace FilterScope.Text

/-- The code points with the Unicode property `White_Space`, as inclusive ranges. -/
def blankRanges : List (Nat × Nat) :=
  [(0x09, 0x0D), (0x20, 0x20), (0x85, 0x85), (0xA0, 0xA0), (0x1680, 0x1680), (0x2000, 0x200A),
   (0x2028, 0x2029), (0x202F, 0x202F), (0x205F, 0x205F), (0x3000, 0x3000)]

/-- Whether a character has the Unicode property `White_Space`. -/
def isBlank (c : Char) : Bool :=
  blankRanges.any fun range => range.1 ≤ c.toNat && c.toNat ≤ range.2

/-- Whether a character may be written freely between the parts of a filter. -/
def isLayout (c : Char) : Bool :=
  c == ' ' || c == '\t' || c == '\r' || c == '\n'

/-- What is left of a text after its leading layout characters. -/
def dropLayout (cs : List Char) : List Char :=
  cs.dropWhile isLayout

/-- Whether a whole text is made of blank characters; the empty text is. -/
def isBlankText (text : String) : Bool :=
  text.toList.all isBlank

/-- Layout is blank. -/
theorem isBlank_of_isLayout {c : Char} (h : isLayout c = true) : isBlank c = true := by
  simp only [isLayout, Bool.or_eq_true, beq_iff_eq] at h
  rcases h with ((rfl | rfl) | rfl) | rfl <;> decide

theorem length_dropLayout_le (cs : List Char) : (dropLayout cs).length ≤ cs.length :=
  (List.dropWhile_suffix _).length_le

theorem length_dropLayout_lt (cs : List Char) : (dropLayout cs).length < cs.length + 1 :=
  Nat.lt_succ_of_le (length_dropLayout_le cs)

end FilterScope.Text
