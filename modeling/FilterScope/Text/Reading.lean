import FilterScope.Text.Blank

/-!
# Readings: how a reader hands on the rest of a text

A reader looks at the front of a text, given as a list of characters, and hands back a value and
the text that is left. Its result is a `Reading α n`, which carries a bound on how much is left;
that bound is what lets readers call each other recursively without any counter.

* A reader of `cs` that always consumes something returns a `Reading α cs.length`.
* A reader of `cs` that may consume nothing returns a `Reading α (cs.length + 1)`.

Readings are put together by `andThen`, which adds the bounds up, so a reader made of other
readers needs no argument about lengths of its own. The bound is a proposition: two readings are
equal as soon as their value and rest agree (`Reading.ext`).
-/

namespace FilterScope.Text

/-! ## Readings -/

/-- A value read off the front of a text, with fewer than `n` characters left to read. -/
structure Reading (α : Type) (n : Nat) where
  /-- what was read -/
  value : α
  /-- the text after it -/
  rest : List Char
  /-- the text after it is short enough -/
  bound : rest.length < n

namespace Reading

variable {α β : Type} {n m : Nat}

/-- Readings are determined by their value and rest; the bound is proof-irrelevant. -/
@[ext] protected theorem ext {r s : Reading α n} (hv : r.value = s.value) (hr : r.rest = s.rest) :
    r = s := by
  cases r; cases s
  subst hv; subst hr
  rfl

/-- Reads nothing. -/
def nothing (value : α) (cs : List Char) : Reading α (cs.length + 1) :=
  ⟨value, cs, Nat.lt_succ_self _⟩

/-- Reads one character. -/
def one (value : α) (c : Char) (cs : List Char) : Reading α (c :: cs).length :=
  ⟨value, cs, Nat.lt_succ_self _⟩

/-- Changes the value and keeps what is left. -/
def map (f : α → β) (r : Reading α n) : Reading β n :=
  ⟨f r.value, r.rest, r.bound⟩

/-- A reading of a text is a reading of the text with one more character before it. -/
def weaken (r : Reading α n) : Reading α (n + 1) :=
  ⟨r.value, r.rest, Nat.lt_succ_of_lt r.bound⟩

/-- A reading of what another one has left, as a reading of the whole. The first value is
dropped. -/
def andThen (r : Reading α n) (s : Reading β (r.rest.length + 1)) : Reading β n :=
  ⟨s.value, s.rest, Nat.lt_of_lt_of_le s.bound r.bound⟩

/-- Drops the layout that follows what was read. -/
def thenLayout (r : Reading α n) : Reading α n :=
  ⟨r.value, dropLayout r.rest, Nat.lt_of_le_of_lt (length_dropLayout_le _) r.bound⟩

end Reading

/-! ## Readers of characters -/

/-- Reads one given character. -/
def char? (c : Char) : (cs : List Char) → Option (Reading Unit cs.length)
  | [] => none
  | d :: cs => if d = c then some (.one () d cs) else none

/-- Reads a given text. -/
def text? : (text cs : List Char) → Option (Reading Unit (cs.length + 1))
  | [], cs => some (.nothing () cs)
  | _ :: _, [] => none
  | t :: text, c :: cs => if t = c then (text? text cs).map (·.weaken) else none

/-- Reads the longest run of characters of a kind. -/
def run (p : Char → Bool) (cs : List Char) : Reading (List Char) (cs.length + 1) :=
  ⟨cs.takeWhile p, cs.dropWhile p, Nat.lt_succ_of_le (List.dropWhile_suffix p).length_le⟩

/-- Reads layout, and one character after it. -/
def visible? : (cs : List Char) → Option (Reading Char cs.length)
  | [] => none
  | c :: cs => if isLayout c then (visible? cs).map (·.weaken) else some (.one c c cs)

/-! ## Measuring a text -/

/-- The number of bytes that a text takes in UTF-8. -/
def byteLength : List Char → Nat
  | [] => 0
  | c :: cs => c.utf8Size + byteLength cs

theorem byteLength_append (cs ds : List Char) :
    byteLength (cs ++ ds) = byteLength cs + byteLength ds := by
  induction cs with
  | nil => exact (Nat.zero_add _).symm
  | cons c cs ih => rw [List.cons_append, byteLength, byteLength, ih, Nat.add_assoc]

end FilterScope.Text
