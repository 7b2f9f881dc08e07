import FilterScope.Filter.Basic
import FilterScope.Text.Reading

/-!
# The smallest parts of a written filter

Readers for what a filter's text is made of: bare words, quoted arguments, operators, and the marks
and keywords between comparisons. Each reads at the front of the text and fails without a reason;
the parser names the reason.

* A **bare word** is a run of unreserved characters, read as far as it goes.
* A **quoted argument** ends at the first quote of its own kind that is not escaped. A backslash
  escapes whatever follows it and makes it part of the argument, so every text can be quoted.
* An **operator** is written as its symbol or with the signs `>` and `<`. The symbols are tried
  first, then the signs, `>=` and `<=` before `>` and `<`.
-/

namespace FilterScope.Filter

open Text

/-! ## Bare words -/

/-- The characters that delimit the parts of a filter and so cannot stand in a bare word. -/
def reserved : List Char :=
  ['"', '\'', '(', ')', ';', ',', '=', '<', '>', '!', '~']

/-- Whether a character may stand in a bare word. -/
def isUnreserved (c : Char) : Bool :=
  !isBlank c && !reserved.contains c

/-- Reads a bare word: one unreserved character and all that follow it. -/
def word? : (cs : List Char) → Option (Reading String cs.length)
  | [] => none
  | c :: cs =>
    if isUnreserved c then
      some ((run isUnreserved cs).map fun more => String.ofList (c :: more))
    else
      none

/-! ## Quoted arguments -/

/-- Whether a character stands for itself between two quotes of a kind: it is neither such a quote
nor a backslash. -/
def isPlain (quote c : Char) : Bool :=
  c != quote && c != '\\'

/-- Reads the content of a quoted argument through its closing quote, one character at a time. A
backslash is dropped and the character after it is kept, whatever it is. `done` is the content that
was read before, its last character first. -/
def unescape? (quote : Char) (done : List Char) :
    (cs : List Char) → Option (Reading (List Char) cs.length)
  | [] => none
  | c :: cs =>
    if c = '\\' then
      match cs with
      | [] => none
      | d :: cs => (unescape? quote (d :: done) cs).map (·.weaken.weaken)
    else if c = quote then
      some (.one done.reverse c cs)
    else
      (unescape? quote (c :: done) cs).map (·.weaken)

/-- Reads the content of a quoted argument, from behind its opening quote through its closing one.
Content without a backslash is taken as it is, up to the quote; only from the first backslash on it
is read one character at a time. -/
def quoted? (quote : Char) (cs : List Char) : Option (Reading (List Char) (cs.length + 1)) :=
  let plain := run (isPlain quote) cs
  match char? quote plain.rest with
  | some closing => some (plain.andThen (closing.map fun _ => plain.value).weaken)
  | none =>
    (unescape? quote plain.value.reverse plain.rest).map fun r => plain.andThen r.weaken

/-- Reads one argument: quoted with either kind of quote, or a bare word. -/
def argument? : (cs : List Char) → Option (Reading String cs.length)
  | [] => none
  | c :: cs =>
    if c = '"' ∨ c = '\'' then
      (quoted? c cs).map fun r => r.map String.ofList
    else
      word? (c :: cs)

/-! ## Operators -/

/-- One way of writing an operator. -/
structure Spelling where
  /-- the first character that is written -/
  lead : Char
  /-- the characters after it -/
  more : List Char
  /-- what it means -/
  operator : Operator
  deriving DecidableEq, Repr

namespace Spelling

/-- The spelling of an operator that is its symbol. -/
def canonical : Operator → Spelling
  | .equal => ⟨'=', ['='], .equal⟩
  | .notEqual => ⟨'!', ['='], .notEqual⟩
  | .greater => ⟨'=', ['g', 't', '='], .greater⟩
  | .atLeast => ⟨'=', ['g', 'e', '='], .atLeast⟩
  | .less => ⟨'=', ['l', 't', '='], .less⟩
  | .atMost => ⟨'=', ['l', 'e', '='], .atMost⟩
  | .among => ⟨'=', ['i', 'n', '='], .among⟩
  | .outside => ⟨'=', ['o', 'u', 't', '='], .outside⟩

/-- The other spellings of operators. Those with two characters come before those with one, which
they begin with. -/
def alternatives : List Spelling :=
  [⟨'>', ['='], .atLeast⟩,
   ⟨'<', ['='], .atMost⟩,
   ⟨'>', [], .greater⟩,
   ⟨'<', [], .less⟩]

/-- Every way of writing an operator, in the order in which they are tried. -/
def all : List Spelling := Operator.all.map canonical ++ alternatives

/-- What is written. -/
def text (s : Spelling) : List Char := s.lead :: s.more

/-- Reads this spelling of an operator. -/
def read? (s : Spelling) : (cs : List Char) → Option (Reading Operator cs.length)
  | [] => none
  | c :: cs => if c = s.lead then (text? s.more cs).map (·.map fun _ => s.operator) else none

end Spelling

/-- Reads an operator in the first spelling that fits. -/
def operator? (cs : List Char) : Option (Reading Operator cs.length) :=
  Spelling.all.findSome? (·.read? cs)

/-! ## Connectives -/

/-- The mark that stands for a connective. -/
def Connective.mark : Connective → Char
  | .and => ';'
  | .or => ','

/-- The keyword that stands for a connective, in lower case. -/
def Connective.keyword : Connective → List Char
  | .and => ['a', 'n', 'd']
  | .or => ['o', 'r']

/-- Reads a keyword, whose ASCII letters may be of either case. -/
def caseless? : (keyword cs : List Char) → Option (Reading Unit (cs.length + 1))
  | [], cs => some (.nothing () cs)
  | _ :: _, [] => none
  | k :: keyword, c :: cs => if c.toLower = k then (caseless? keyword cs).map (·.weaken) else none

/-- Reads layout, of which there must be some. -/
def layout? : (cs : List Char) → Option (Reading Unit cs.length)
  | [] => none
  | c :: cs =>
    if isLayout c then
      some ⟨(), dropLayout cs, length_dropLayout_lt cs⟩
    else
      none

/-- Reads a mark with any layout around it. -/
def mark? (mark : Char) (cs : List Char) : Option (Reading Unit cs.length) :=
  match visible? cs with
  | none => none
  | some c => if c.value = mark then some (c.thenLayout.map fun _ => ()) else none

/-- Reads a keyword with layout on both sides. -/
def keyword? (keyword : List Char) (cs : List Char) : Option (Reading Unit cs.length) :=
  match layout? cs with
  | none => none
  | some before =>
    match caseless? keyword before.rest with
    | none => none
    | some word => (layout? word.rest).map fun after => before.andThen (word.andThen after.weaken)

/-- Reads what stands between two operands of a connective: its mark, or its keyword. -/
def separator? (connective : Connective) (cs : List Char) : Option (Reading Unit cs.length) :=
  mark? connective.mark cs <|> keyword? connective.keyword cs

end FilterScope.Filter
