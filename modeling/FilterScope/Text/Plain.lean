/-!
# Plain texts

A text may hold sequences that a terminal obeys instead of showing them. Where there is no
terminal, a text is written without them, and without the control characters that are no white
space.

What is taken out follows the rules by which a terminal reads its input:

* The escape character begins a sequence and breaks off any sequence it stands in. The characters
  cancel and substitute break one off and begin none.
* A **control sequence** (`[` behind escape) ends with the first of the characters from `@` to `~`.
* A **device control string** (`P`), an **operating system command** (`]`) and a **message** (`X`,
  `^` or `_`) hold text of their own, which is not shown either. A command ends with the bell
  character. The other two end at the byte 9C, which here can only be a part of a character.
* Any other sequence ends with the first of the characters from `0` to `~`.

White space inside an escape or control sequence is shown, and pauses the sequence: what comes
after it is shown too, up to the next control character. A paused sequence is over when a
character beyond ASCII comes.
-/

namespace FilterScope.Text

/-! ## Characters -/

/-- The control characters that are white space on a plain stream: tab, line feed, form feed and
carriage return. -/
def isSpacing (c : Char) : Bool :=
  c == '\t' || c == '\n' || c == '\x0C' || c == '\r'

/-- Whether a character outside of sequences is shown. -/
def isShown (c : Char) : Bool :=
  (' ' ≤ c && c != '\x7F') || isSpacing c

/-- Whether a character is one of ASCII. -/
def isAscii (c : Char) : Bool :=
  c.toNat < 0x80

/-- Whether the byte that ends strings is one of the bytes of a character in UTF-8. -/
def hasTerminator (c : Char) : Bool :=
  (String.utf8EncodeChar c).contains 0x9C

/-! ## Sequences -/

/-- How far a sequence has been read. -/
inductive Sequence where
  /-- its escape character -/
  | escape
  /-- characters that announce more -/
  | announced
  /-- the beginning of a control sequence -/
  | control
  /-- the very beginning of a device control string -/
  | device
  /-- the parameters of a device control string -/
  | deviceParameters
  /-- characters that announce the inside of a device control string -/
  | deviceAnnounced
  /-- the inside of a device control string -/
  | deviceString
  /-- the inside of an operating system command -/
  | command
  /-- the inside of a message -/
  | message
  deriving DecidableEq, Repr

namespace Sequence

/-- Whether white space pauses a sequence. -/
def canPause : Sequence → Bool
  | .escape | .announced | .control => true
  | .device | .deviceParameters | .deviceAnnounced | .deviceString | .command | .message => false

/-- The sequence that a character behind escape goes on with; none if that is all. -/
def begin? (c : Char) : Option Sequence :=
  match c with
  | '[' => some .control
  | ']' => some .command
  | 'P' => some .device
  | 'X' | '^' | '_' => some .message
  | _ => if c < ' ' ∨ '~' < c then some .escape else if c < '0' then some .announced else none

/-- Whether a character lies between two others, which count. -/
def between (low high c : Char) : Bool :=
  low ≤ c && c ≤ high

/-- The sequence with one more character, which breaks nothing off; none if it ends. -/
def next? (s : Sequence) (c : Char) : Option Sequence :=
  match s with
  | .escape => begin? c
  | .announced => if between '0' '~' c then none else some .announced
  | .control => if between '@' '~' c then none else some .control
  | .device =>
    if between ' ' '/' c then some .deviceAnnounced
    else if between '0' '?' c then some .deviceParameters
    else if between '@' '~' c then some .deviceString
    else some .device
  | .deviceParameters =>
    if between ' ' '/' c then some .deviceAnnounced
    else if between '<' '~' c then some .deviceString
    else some .deviceParameters
  | .deviceAnnounced => if between '0' '~' c then some .deviceString else some .deviceAnnounced
  | .deviceString => if hasTerminator c then none else some .deviceString
  | .command => if c = '\x07' then none else some .command
  | .message => if hasTerminator c then none else some .message

end Sequence

/-! ## Texts -/

/-- Where reading a text stands. -/
inductive Mode where
  /-- outside of sequences -/
  | text
  /-- inside a sequence -/
  | inside (s : Sequence)
  /-- inside a sequence that white space has paused -/
  | paused (s : Sequence)
  deriving DecidableEq, Repr

namespace Mode

/-- Whether a character is shown. -/
def shows (mode : Mode) (c : Char) : Bool :=
  match mode with
  | .text | .paused _ => isShown c
  | .inside s => s.canPause && isSpacing c

/-- Where reading stands after a character. -/
def next (mode : Mode) (c : Char) : Mode :=
  if c = '\x1B' then
    .inside .escape
  else if c = '\x18' ∨ c = '\x1A' then
    .text
  else
    match mode with
    | .text => .text
    | .inside s => if mode.shows c then .paused s else (s.next? c).elim .text .inside
    | .paused s => if !isAscii c then .text else if isShown c then .paused s else .inside s

end Mode

/-- The characters of a text that are shown. -/
def shownFrom (mode : Mode) : List Char → List Char
  | [] => []
  | c :: cs => if mode.shows c then c :: shownFrom (mode.next c) cs else shownFrom (mode.next c) cs

/-- A text as it is written where there is no terminal. -/
def plain (text : String) : String :=
  String.ofList (shownFrom .text text.toList)

end FilterScope.Text
