import FilterScope.Json.Text

/-!
# Numbers in JSON

No document format here holds a number, so what number it is does not matter. Two things do: how
far the text of a number goes, and that a number which is wanted must be in **range**. A number is
out of range when the double nearest to it would be infinite.

The nearest double is found as a product: the digits make a significand of at most 64 bits, the
point and the exponent a power of ten, each is rounded to 53 bits, and so is their product. Digits
that the significand cannot hold are not read into it: those before the point count as powers of
ten and those after it are dropped. A negative power of ten never leads out of range.
-/

namespace FilterScope.Json

open Text

/-! ## The text of a number -/

/-- A number as it is written; digits are given by their values. -/
structure Numeral where
  /-- the digits before the point -/
  whole : List Nat
  /-- the digits after the point -/
  fraction : List Nat
  /-- whether the exponent has a minus sign -/
  isNegativeExponent : Bool
  /-- the digits of the exponent -/
  exponent : List Nat
  deriving DecidableEq, Repr

/-- Reads digits as far as they go. -/
def digits : Reader (List Nat) := fun cs =>
  .ok ((run Char.isDigit cs).map fun ds => ds.map fun c => c.toNat - '0'.toNat)

/-- The character that comes next; none is skipped. -/
def next : Reader (Option Char) := fun cs =>
  .ok (.nothing cs.head? cs)

/-- The fault of a number whose digits are missing. A number that is skipped may not end early. -/
def missingDigit (care : Care) : Option Char → Fault
  | none => if care = .kept then .truncated else .malformed
  | some _ => .malformed

/-- Reads digits, of which there must be some. -/
def someDigits (care : Care) : Reader (List Nat) := do
  let c ← next
  if c.any Char.isDigit then digits else .fail (missingDigit care c)

/-- Reads the digits before the point: a zero alone, or digits that do not begin with one. -/
def wholeDigits (care : Care) : Reader (List Nat) := do
  let ds ← someDigits care
  if ds.head? = some 0 ∧ ds.length ≠ 1 then .fail .malformed else pure ds

/-- Reads the point and the digits after it, if there is a point. -/
def fractionDigits (care : Care) : Reader (List Nat) := do
  match ← next with
  | some '.' =>
    Reader.char '.'
    someDigits care
  | _ => pure []

/-- Reads the sign of an exponent, if there is one: whether it is a minus. -/
def exponentSign : Reader Bool := do
  match ← next with
  | some '+' =>
    Reader.char '+'
    pure false
  | some '-' =>
    Reader.char '-'
    pure true
  | _ => pure false

/-- Reads an exponent, if there is one: whether it is negative, and its digits. -/
def exponentDigits (care : Care) : Reader (Bool × List Nat) := do
  match ← next with
  | some c =>
    if c = 'e' ∨ c = 'E' then
      Reader.char c
      let isNegative ← exponentSign
      let ds ← someDigits care
      pure (isNegative, ds)
    else
      pure (false, [])
  | none => pure (false, [])

/-- Reads a number without its sign. -/
def numeral (care : Care) : Reader Numeral := do
  let whole ← wholeDigits care
  let fraction ← fractionDigits care
  let (isNegativeExponent, exponent) ← exponentDigits care
  pure ⟨whole, fraction, isNegativeExponent, exponent⟩

/-! ## The range of numbers -/

/-- The nearest number with at most 53 binary digits before its trailing zeros; a half goes to the
even neighbour. -/
def round53 (n : Nat) : Nat :=
  let unit := Nat.pow 2 (n.log2 - 52)
  let low := n / unit
  let excess := n % unit
  if 2 * excess > unit ∨ (2 * excess = unit ∧ low % 2 = 1) then (low + 1) * unit else low * unit

/-- A significand and a power of ten. -/
structure Scaled where
  /-- the significand, below `2 ^ 64` -/
  significand : Nat
  /-- the power of ten -/
  exponent : Int
  deriving DecidableEq, Repr

/-- Puts the digits before the point into a significand. From the first one on that does not
fit, each counts as a power of ten. -/
def Scaled.ofWhole (significand : Nat) : List Nat → Scaled
  | [] => ⟨significand, 0⟩
  | d :: ds =>
    if significand * 10 + d < Nat.pow 2 64 then
      ofWhole (significand * 10 + d) ds
    else
      ⟨significand, ds.length + 1⟩

/-- Puts the digits after the point behind a significand, up to the first one that does not fit. -/
def Scaled.addFraction (number : Scaled) : List Nat → Scaled
  | [] => number
  | d :: ds =>
    if number.significand * 10 + d < Nat.pow 2 64 then
      addFraction ⟨number.significand * 10 + d, number.exponent - 1⟩ ds
    else
      number

/-- The value of a number as a significand and a power of ten. -/
def Numeral.scaled (n : Numeral) : Scaled :=
  let digits := (Scaled.ofWhole 0 n.whole).addFraction n.fraction
  let exponent : Nat := n.exponent.foldl (fun value d => value * 10 + d) 0
  ⟨digits.significand,
    if n.isNegativeExponent then digits.exponent - exponent else digits.exponent + exponent⟩

/-- Whether a double can hold the product of a significand and a power of ten. No significand but
zero can be scaled beyond `10 ^ 308`, the greatest power of ten that is a double. -/
def Scaled.inRange (number : Scaled) : Bool :=
  if number.exponent < 0 ∨ number.significand = 0 then
    true
  else if number.exponent > 308 then
    false
  else
    round53 (round53 number.significand * round53 (Nat.pow 10 number.exponent.toNat)) <
      Nat.pow 2 1024

/-- Reads a number with its sign. A number that is kept must be in range. -/
def number (care : Care) : Reader Unit := do
  match ← next with
  | some '-' => Reader.char '-'
  | _ => pure ()
  let n ← numeral care
  if care = .kept ∧ !n.scaled.inRange then .fail .malformed else pure ()

end FilterScope.Json
