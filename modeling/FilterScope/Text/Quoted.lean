import FilterScope.Text.Hidden

/-!
# Texts in quotes

A text is shown between double quotes so that every character of it can be seen: quotes and
backslashes have a backslash before them, and characters that do not show are written by their
number.
-/

namespace FilterScope.Text

/-- The hexadecimal digits of a number. -/
def hexadecimal (n : Nat) : String :=
  String.ofList (Nat.toDigits 16 n)

/-- How a character is written between quotes. -/
def shown (c : Char) : String :=
  match c with
  | '"' => "\\\""
  | '\\' => "\\\\"
  | '\x00' => "\\0"
  | '\t' => "\\t"
  | '\n' => "\\n"
  | '\r' => "\\r"
  | c => if isHidden c then "\\u\x7b" ++ hexadecimal c.toNat ++ "\x7d" else c.toString

/-- A text in quotes. -/
def quote (text : String) : String :=
  "\"" ++ String.join (text.toList.map shown) ++ "\""

end FilterScope.Text
