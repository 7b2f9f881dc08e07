import FilterScope.Json.Text

/-!
# Writing JSON

The plain way of writing strings, lists and objects: no white space, and in a string only what has
to be escaped is, with the short form of an escape where there is one.
-/

namespace FilterScope.Json

/-- A hexadecimal digit in lower case. -/
def hexDigit (n : Nat) : Char :=
  if n < 10 then Char.ofNat ('0'.toNat + n) else Char.ofNat ('a'.toNat + (n - 10))

/-- How a character is written in a string. -/
def written (c : Char) : List Char :=
  match c with
  | '"' => ['\\', '"']
  | '\\' => ['\\', '\\']
  | '\x08' => ['\\', 'b']
  | '\x0C' => ['\\', 'f']
  | '\n' => ['\\', 'n']
  | '\r' => ['\\', 'r']
  | '\t' => ['\\', 't']
  | c =>
    if c < ' ' then ['\\', 'u', '0', '0', hexDigit (c.toNat / 16), hexDigit (c.toNat % 16)] else [c]

/-- How a string is written. -/
def writeString (s : String) : List Char :=
  '"' :: s.toList.flatMap written ++ ['"']

/-- How a list of written values is written. -/
def writeList (items : List (List Char)) : List Char :=
  '[' :: [','].intercalate items ++ [']']

/-- How an object of written values is written. -/
def writeObject (members : List (String × List Char)) : List Char :=
  '\x7b' :: [','].intercalate (members.map fun (key, value) => writeString key ++ ':' :: value) ++
    ['\x7d']

end FilterScope.Json
