import FilterScope.Json.Value
import FilterScope.Proofs.Json.Reader

/-!
# What the reader of values does

The first character of a value decides how it is read, so there is one equation for each kind of
character (`run_value_text` and those after it), and the shape of a value that was read can be told
from that character (`begins_of_run`). How deep values may be nested matters for lists and objects
only (`run_value_levels`).
-/

namespace FilterScope.Json

open Text

variable {α : Type}

/-! ## How values begin -/

/-- Whether a value of this shape begins with a character. -/
def Value.begins : Value → Char → Bool
  | .null, c => c == 'n'
  | .bool true, c => c == 't'
  | .bool false, c => c == 'f'
  | .number, c => c == '-' || c.isDigit
  | .text _, c => c == '"'
  | .list _, c => c == '['
  | .object _, c => c == '\x7b'

namespace Reader

/-- Whether a value that begins with a character is neither a string nor a list nor an object. -/
def beginsScalar (c : Char) : Bool :=
  c != '"' && c != '[' && c != '\x7b'

/-- Reads a word or a number, as its first character asks for. -/
def scalar (care : Care) (c : Char) : Reader Value :=
  if c = '-' ∨ c.isDigit then number care >>= fun _ => pure .number else word

section Values

variable {care : Care} {levels : Nat} {cs rest : List Char}

/-- Where no text is left, there is no value. -/
theorem run_value_nil (h : dropLayout cs = []) :
    run (value care levels) cs = .error .truncated := by
  cases levels <;> simp [value, valueWith, h]

/-- A quote begins a text. -/
theorem run_value_text (h : dropLayout cs = '"' :: rest) :
    run (value care levels) cs = run (quoted care) ('"' :: rest) >>= fun p =>
      .ok (.text p.1, p.2) := by
  cases levels <;> simp [value, valueWith, h]

/-- The first character of a value without parts decides what it is. -/
theorem run_value_scalar {c : Char} (h : dropLayout cs = c :: rest)
    (hscalar : beginsScalar c = true) :
    run (value care levels) cs = run (scalar care c) (c :: rest) := by
  simp only [beginsScalar, Bool.and_eq_true, bne_iff_ne] at hscalar
  obtain ⟨⟨hquote, hbracket⟩, hbrace⟩ := hscalar
  cases levels with
  | zero =>
    simp only [value, valueWith, run_bind, run_peek, ok_bind, h, List.head?_cons, scalar]
    split <;> simp_all
  | succ levels =>
    simp only [value, valueWith, run_bind, run_peek, ok_bind, h, List.head?_cons, scalar]
    split <;> simp_all

/-- A bracket begins a list, which takes up one level. -/
theorem run_value_list (h : dropLayout cs = '[' :: rest) :
    run (value care (levels + 1)) cs = run (elements (value care levels)) rest >>= fun p =>
      .ok (.list p.1, p.2) := by
  simp [value, valueWith, h]

/-- A brace begins an object, which takes up one level. -/
theorem run_value_object (h : dropLayout cs = '\x7b' :: rest) :
    run (value care (levels + 1)) cs =
      run (members (fun entries => member care fun key =>
        .ok ((fun v => entries ++ [(key, v)]) <$> value care levels)) []) rest >>= fun p =>
      .ok (.object p.1, p.2) := by
  simp [value, valueWith, h]

/-- A list or object is too deep where none may be nested. -/
theorem run_value_zero {c : Char} (h : dropLayout cs = c :: rest) (hc : c = '[' ∨ c = '\x7b') :
    run (value care 0) cs = .error .malformed := by
  rcases hc with rfl | rfl <;> simp [value, valueWith, h]

/-- How deep a value may be nested matters for lists and objects only. -/
theorem run_value_levels (hbracket : (dropLayout cs).head? ≠ some '[')
    (hbrace : (dropLayout cs).head? ≠ some '\x7b') :
    run (value care levels) cs = run (value care 0) cs := by
  cases hcs : dropLayout cs with
  | nil => rw [run_value_nil hcs, run_value_nil hcs]
  | cons c ds =>
    by_cases hquote : c = '"'
    · subst hquote
      rw [run_value_text hcs, run_value_text hcs]
    · have hscalar : beginsScalar c = true := by
        simp_all [beginsScalar]
      rw [run_value_scalar hcs hscalar, run_value_scalar hcs hscalar]

/-- Layout in front of a value is passed over. -/
theorem run_value_dropLayout (cs : List Char) :
    run (value care levels) (dropLayout cs) = run (value care levels) cs := by
  cases levels <;> simp [value, valueWith]

/-- A value without parts begins with the character that it is read from. -/
theorem begins_of_run_scalar {c : Char} {ds : List Char} {v : Value}
    (h : run (scalar care c) (c :: ds) = .ok (v, rest)) : v.begins c = true := by
  by_cases hnumber : c = '-' ∨ c.isDigit = true
  · rw [scalar, if_pos hnumber] at h
    rw [eq_of_run_pure h]
    simpa [Value.begins] using hnumber
  · have hnext : run next (c :: ds) = .ok (some c, c :: ds) := rfl
    rw [scalar, if_neg hnumber, word, run_bind, hnext, ok_bind] at h
    split at h
    · next heq =>
      rw [eq_of_run_pure h, Option.some.inj heq]
      rfl
    · next heq =>
      rw [eq_of_run_pure h, Option.some.inj heq]
      rfl
    · next heq =>
      rw [eq_of_run_pure h, Option.some.inj heq]
      rfl
    · cases h
    · cases h

/-- A value begins with the first visible character of its text. -/
theorem begins_of_run {v : Value} {c : Char} {ds : List Char} (hcs : dropLayout cs = c :: ds)
    (h : run (value care levels) cs = .ok (v, rest)) : v.begins c = true := by
  by_cases hscalar : beginsScalar c = true
  · rw [run_value_scalar hcs hscalar] at h
    exact begins_of_run_scalar h
  by_cases hquote : c = '"'
  · subst hquote
    rw [run_value_text hcs] at h
    obtain ⟨p, -, hp⟩ := bind_eq_ok.mp h
    cases hp
    rfl
  have hnested : c = '[' ∨ c = '\x7b' := by
    simpa [beginsScalar, hquote, or_iff_not_imp_left] using hscalar
  cases levels with
  | zero =>
    rw [run_value_zero hcs hnested] at h
    cases h
  | succ levels =>
    rcases hnested with rfl | rfl
    · rw [run_value_list hcs] at h
      obtain ⟨p, -, hp⟩ := bind_eq_ok.mp h
      cases hp
      rfl
    · rw [run_value_object hcs] at h
      obtain ⟨p, -, hp⟩ := bind_eq_ok.mp h
      cases hp
      rfl

/-- A value shows its shape in its first character. -/
theorem exists_begins_of_run {v : Value} (h : run (value care levels) cs = .ok (v, rest)) :
    ∃ c, (dropLayout cs).head? = some c ∧ v.begins c = true := by
  cases hcs : dropLayout cs with
  | nil =>
    rw [run_value_nil hcs] at h
    cases h
  | cons c ds => exact ⟨c, rfl, begins_of_run hcs h⟩

end Values

/-! ## Members of objects -/

/-- A member is a key, a colon and what is read for the key. -/
theorem run_member (care : Care) (choose : String → Except Fault (Reader α)) (cs : List Char) :
    run (member care choose) cs = run (quoted care) (dropLayout cs) >>= fun key =>
      choose key.1 >>= fun read => run (mark ':') key.2 >>= fun colon => run read colon.2 := by
  simp only [member, run_bind, run_peek, ok_bind, run_ofExcept]
  cases run (quoted care) (dropLayout cs) with
  | error fault => rfl
  | ok key =>
    dsimp only [ok_bind]
    cases choose key.1 <;> rfl

/-- Reads a member whose key means nothing in particular, and adds it to those before it. -/
def entry (levels : Nat) (entries : List (String × Value)) : Reader (List (String × Value)) :=
  member .kept fun key => .ok ((fun v => entries ++ [(key, v)]) <$> value .kept levels)

theorem run_entry (levels : Nat) (entries : List (String × Value)) (cs : List Char) :
    run (entry levels entries) cs = run (quoted .kept) (dropLayout cs) >>= fun key =>
      run (mark ':') key.2 >>= fun colon => run (value .kept levels) colon.2 >>= fun p =>
        .ok (entries ++ [(key.1, p.1)], p.2) := by
  simp only [entry, run_member, ok_bind, run_map]

end Reader

end FilterScope.Json
