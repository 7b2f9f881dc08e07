import FilterScope.Json.Value

/-!
# The grammar of JSON

What it means for a text to spell a value, said without a reader: each rule relates a text to what
it stands for. A value has many spellings, for two reasons only.

* White space may stand around every value and every mark (`IsSpace`).
* A character of a string may be written as it is or escaped, and escaped in several ways
  (`IsCharacter`). This goes for keys too.

What the spellings leave open about an object, the order of its members, is part of the value here:
an object is a list of members. Numbers stand for nothing in the documents of this project, so there
is no rule for them.
-/

namespace FilterScope.Json

/-! ## Strings -/

/-- A text of white space only, possibly empty. -/
def IsSpace (text : List Char) : Prop :=
  ∀ c ∈ text, Text.isLayout c = true

instance (text : List Char) : Decidable (IsSpace text) :=
  List.decidableBAll _ text

/-- Four hexadecimal digits, and the UTF-16 unit that they stand for. -/
inductive IsUnit : List Char → Nat → Prop where
  /-- the digits, the highest one first -/
  | intro {a b c d : Char} {i j k l : Nat} (ha : hexDigit? a = some i) (hb : hexDigit? b = some j)
      (hc : hexDigit? c = some k) (hd : hexDigit? d = some l) :
      IsUnit [a, b, c, d] (((i * 16 + j) * 16 + k) * 16 + l)

/-- A character of a string as it is written. -/
inductive IsCharacter : List Char → Char → Prop where
  /-- as it is, if it is no control character, quote or backslash -/
  | plain {c : Char} (hquote : c ≠ '"') (hescape : c ≠ '\\') (hcontrol : ' ' ≤ c) :
      IsCharacter [c] c
  /-- as an escape of one letter -/
  | short {letter c : Char} (hletter : shortEscape? letter = some c) :
      IsCharacter ['\\', letter] c
  /-- as its UTF-16 unit -/
  | unit {text : List Char} {c : Char} (hunit : IsUnit text c.toNat) :
      IsCharacter ('\\' :: 'u' :: text) c
  /-- as its pair of UTF-16 units, each with ten bits of it -/
  | pair {leading trailing : List Char} {high low : Nat} {c : Char}
      (hleading : IsUnit leading (0xD800 + high)) (htrailing : IsUnit trailing (0xDC00 + low))
      (hhigh : high < 0x400) (hlow : low < 0x400) (hc : c.toNat = 0x10000 + high * 0x400 + low) :
      IsCharacter ('\\' :: 'u' :: leading ++ '\\' :: 'u' :: trailing) c

/-- The content of a string, and what it stands for. -/
inductive IsCharacters : List Char → List Char → Prop where
  /-- nothing -/
  | nil : IsCharacters [] []
  /-- a character, and more -/
  | cons {text more : List Char} {c : Char} {cs : List Char} (hfirst : IsCharacter text c)
      (hmore : IsCharacters more cs) : IsCharacters (text ++ more) (c :: cs)

/-- A string. -/
inductive IsString : List Char → String → Prop where
  /-- characters between quotes -/
  | intro {text cs : List Char} (hcharacters : IsCharacters text cs) :
      IsString ('"' :: text ++ ['"']) (String.ofList cs)

/-! ## Values -/

mutual

/-- A value, without the white space around it. -/
inductive IsValue : List Char → Value → Prop where
  /-- the word `null` -/
  | null : IsValue ['n', 'u', 'l', 'l'] .null
  /-- the word `true` -/
  | truth : IsValue ['t', 'r', 'u', 'e'] (.bool true)
  /-- the word `false` -/
  | falsity : IsValue ['f', 'a', 'l', 's', 'e'] (.bool false)
  /-- a string -/
  | text {text : List Char} {s : String} (hstring : IsString text s) : IsValue text (.text s)
  /-- a list of nothing -/
  | emptyList {space : List Char} (hspace : IsSpace space) :
      IsValue ('[' :: space ++ [']']) (.list [])
  /-- a list -/
  | list {before text more after : List Char} {v : Value} {vs : List Value}
      (hbefore : IsSpace before) (hfirst : IsValue text v) (hmore : IsMoreItems more vs)
      (hafter : IsSpace after) :
      IsValue ('[' :: before ++ text ++ more ++ after ++ [']']) (.list (v :: vs))
  /-- an object of nothing -/
  | emptyObject {space : List Char} (hspace : IsSpace space) :
      IsValue ('\x7b' :: space ++ ['\x7d']) (.object [])
  /-- an object -/
  | object {before text more after : List Char} {entry : String × Value}
      {entries : List (String × Value)} (hbefore : IsSpace before) (hfirst : IsMember text entry)
      (hmore : IsMoreMembers more entries) (hafter : IsSpace after) :
      IsValue ('\x7b' :: before ++ text ++ more ++ after ++ ['\x7d']) (.object (entry :: entries))

/-- The items of a list after its first one, each with a comma before it. -/
inductive IsMoreItems : List Char → List Value → Prop where
  /-- none -/
  | nil : IsMoreItems [] []
  /-- one, and more -/
  | cons {before after text more : List Char} {v : Value} {vs : List Value}
      (hbefore : IsSpace before) (hafter : IsSpace after) (hvalue : IsValue text v)
      (hmore : IsMoreItems more vs) :
      IsMoreItems (before ++ ',' :: after ++ text ++ more) (v :: vs)

/-- A member of an object. -/
inductive IsMember : List Char → String × Value → Prop where
  /-- a key, a colon and a value -/
  | intro {name before after text : List Char} {key : String} {v : Value}
      (hkey : IsString name key) (hbefore : IsSpace before) (hafter : IsSpace after)
      (hvalue : IsValue text v) : IsMember (name ++ before ++ ':' :: after ++ text) (key, v)

/-- The members of an object after its first one, each with a comma before it. -/
inductive IsMoreMembers : List Char → List (String × Value) → Prop where
  /-- none -/
  | nil : IsMoreMembers [] []
  /-- one, and more -/
  | cons {before after text more : List Char} {entry : String × Value}
      {entries : List (String × Value)} (hbefore : IsSpace before) (hafter : IsSpace after)
      (hmember : IsMember text entry) (hmore : IsMoreMembers more entries) :
      IsMoreMembers (before ++ ',' :: after ++ text ++ more) (entry :: entries)

end

/-- A whole text: a value with any white space around it. -/
inductive IsDocument : List Char → Value → Prop where
  /-- a value and the white space around it -/
  | intro {before text after : List Char} {v : Value} (hbefore : IsSpace before)
      (hvalue : IsValue text v) (hafter : IsSpace after) : IsDocument (before ++ text ++ after) v

/-! ## Depth -/

/-- The lists and objects in a value are nested at most so many levels deep. -/
inductive Value.NestedWithin : Nat → Value → Prop where
  /-- `null` is not nested -/
  | null {levels : Nat} : NestedWithin levels .null
  /-- a truth value is not nested -/
  | bool {levels : Nat} {b : Bool} : NestedWithin levels (.bool b)
  /-- a number is not nested -/
  | number {levels : Nat} : NestedWithin levels .number
  /-- a string is not nested -/
  | text {levels : Nat} {s : String} : NestedWithin levels (.text s)
  /-- a list is nested once more than its items -/
  | list {levels : Nat} {items : List Value} (hitems : ∀ v ∈ items, NestedWithin levels v) :
      NestedWithin (levels + 1) (.list items)
  /-- an object is nested once more than its members -/
  | object {levels : Nat} {entries : List (String × Value)}
      (hentries : ∀ entry ∈ entries, NestedWithin levels entry.2) :
      NestedWithin (levels + 1) (.object entries)

end FilterScope.Json
