import FilterScope.Json.Reader

/-!
# Strings in JSON

A string stands between double quotes. Control characters cannot stand in it; a backslash begins an
escape. The escape `\u` takes four hexadecimal digits, which are one UTF-16 unit: a character beyond
the basic plane is written as a pair of units, and a unit of a pair cannot stand alone.

A string that is only skipped is read more loosely (`Care.skipped`): its units need not pair up,
because no character has to be made of them.
-/

namespace FilterScope.Json

open Text

/-- How closely a value is looked at. -/
inductive Care where
  /-- the value is wanted, so it must have one -/
  | kept
  /-- the value is not wanted, so only its extent matters -/
  | skipped
  deriving DecidableEq, Repr

/-! ## Escapes -/

/-- What an escape of one letter stands for. -/
def shortEscape? : Char → Option Char
  | '"' => some '"'
  | '\\' => some '\\'
  | '/' => some '/'
  | 'b' => some '\x08'
  | 'f' => some '\x0C'
  | 'n' => some '\n'
  | 'r' => some '\r'
  | 't' => some '\t'
  | _ => none

/-- The value of a hexadecimal digit. -/
def hexDigit? (c : Char) : Option Nat :=
  if '0' ≤ c ∧ c ≤ '9' then some (c.toNat - '0'.toNat)
  else if 'a' ≤ c ∧ c ≤ 'f' then some (c.toNat - 'a'.toNat + 10)
  else if 'A' ≤ c ∧ c ≤ 'F' then some (c.toNat - 'A'.toNat + 10)
  else none

/-- Reads four hexadecimal digits as one UTF-16 unit. A text of fewer than four bytes ends too
early, whatever it holds. -/
def unit : Reader Nat := fun cs =>
  match cs with
  | a :: b :: c :: d :: rest =>
    match hexDigit? a, hexDigit? b, hexDigit? c, hexDigit? d with
    | some a, some b, some c, some d =>
      .ok (Reading.nothing (((a * 16 + b) * 16 + c) * 16 + d) rest).weaken.weaken.weaken.weaken
    | _, _, _, _ => .error .malformed
  | _ => .error (if byteLength cs < 4 then .truncated else .malformed)

/-- Whether a UTF-16 unit is the first of a pair. -/
def isLeading (u : Nat) : Bool := 0xD800 ≤ u && u ≤ 0xDBFF

/-- Whether a UTF-16 unit is the second of a pair. -/
def isTrailing (u : Nat) : Bool := 0xDC00 ≤ u && u ≤ 0xDFFF

/-- Reads what follows `\u`: one unit, or a pair of units with `\u` between them. -/
def unicodeEscape : Care → Reader Char
  | .skipped => do
    let u ← unit
    pure (Char.ofNat u)
  | .kept => do
    let u ← unit
    if isTrailing u then
      .fail .malformed
    else if isLeading u then
      Reader.exactly ['\\', 'u']
      let v ← unit
      if isTrailing v then
        pure (Char.ofNat (0x10000 + (u - 0xD800) * 0x400 + (v - 0xDC00)))
      else
        .fail .malformed
    else
      pure (Char.ofNat u)

/-- Reads what follows a backslash. -/
def escape (care : Care) : Reader Char
  | [] => .error .truncated
  | c :: cs =>
    match shortEscape? c with
    | some d => .ok (Reading.one d c cs).weaken
    | none =>
      if c = 'u' then
        (unicodeEscape care cs).map (·.weaken)
      else
        .error .malformed

/-! ## Strings -/

/-- Reads the characters of a string from behind its opening quote through its closing one. -/
def characters (care : Care) (cs : List Char) : Except Fault (Reading (List Char) cs.length) :=
  match cs with
  | [] => .error .truncated
  | c :: cs =>
    if c = '"' then
      .ok (.one [] c cs)
    else if c = '\\' then
      match escape care cs with
      | .error fault => .error fault
      | .ok first =>
        match characters care first.rest with
        | .error fault => .error fault
        | .ok more => .ok (first.andThen (more.map (first.value :: ·)).weaken)
    else if c < ' ' then
      .error .malformed
    else
      match characters care cs with
      | .error fault => .error fault
      | .ok more => .ok ((more.map (c :: ·)).weaken)
termination_by cs.length
decreasing_by
  · exact first.bound
  · exact Nat.lt_succ_self _

/-- Reads a string from its opening quote on. -/
def quoted (care : Care) : Reader String := do
  Reader.char '"'
  let text ← fun cs => (characters care cs).map (·.weaken)
  pure (String.ofList text)

end FilterScope.Json
