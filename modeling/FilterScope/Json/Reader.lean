import FilterScope.Text.Reading

/-!
# Reading JSON text

A document is read from left to right, straight into what it describes, and the first fault ends it.
So a `Reader` is told what to expect, and the kinds of `Fault` say how the expectation failed.

* `Reader` is a monad: a reading may consume any amount of text, also none, and readings compose
  because "no more is left than before" is transitive.
* `elements` and `members` read what stands between brackets and braces. They are the only loops.
  Each round begins by consuming a comma, so they end whatever the reader does that they are given.
* The reader of a member is chosen by its key alone, before the colon is read; a key that is
  refused is therefore a fault at the key, whatever comes after it.

White space is what a filter calls layout: space, tab, line feed and carriage return.
-/

namespace FilterScope.Json

open Text

/-! ## Faults -/

/-- Why a text is not the document that was expected. -/
inductive Fault where
  /-- the text is not JSON -/
  | malformed
  /-- the text ends inside the document -/
  | truncated
  /-- the text may be JSON, but a value in it is not of the expected kind -/
  | misshapen
  deriving DecidableEq, Repr

/-- The words for a fault. -/
def Fault.message : Fault → String
  | .malformed => "the text is not JSON"
  | .truncated => "the text ends inside a value"
  | .misshapen => "a value is not of the expected kind"

/-! ## Readers -/

/-- Reads a value from the front of a text and leaves at most the text it was given. -/
def Reader (α : Type) : Type :=
  (cs : List Char) → Except Fault (Reading α (cs.length + 1))

namespace Reader

variable {α β σ : Type}

/-- Reads nothing. -/
protected def pure (a : α) : Reader α :=
  fun cs => .ok (.nothing a cs)

/-- Reads on from where the first reading stopped. -/
protected def bind (read : Reader α) (next : α → Reader β) : Reader β :=
  fun cs =>
    match read cs with
    | .error fault => .error fault
    | .ok first =>
      match next first.value first.rest with
      | .error fault => .error fault
      | .ok second => .ok (first.andThen second)

instance : Monad Reader where
  pure := Reader.pure
  bind := Reader.bind

/-- Fails. -/
def fail (fault : Fault) : Reader α :=
  fun _ => .error fault

/-- Takes over a result that needed no reading. -/
def ofExcept : Except Fault α → Reader α
  | .ok a => Reader.pure a
  | .error fault => fail fault

/-- Skips white space, and tells which character comes next. -/
def peek : Reader (Option Char) :=
  fun cs =>
    .ok ⟨(dropLayout cs).head?, dropLayout cs, length_dropLayout_lt cs⟩

/-- Reads one given character. -/
def char (c : Char) : Reader Unit
  | [] => .error .truncated
  | d :: cs =>
    if d = c then .ok (Reading.one () d cs).weaken else .error .malformed

/-- Reads a given text. -/
def exactly : List Char → Reader Unit
  | [] => Reader.pure ()
  | c :: text => Reader.bind (char c) fun _ => exactly text

/-- Skips white space and reads one given character. -/
def mark (c : Char) : Reader Unit := do
  let _ ← peek
  char c

/-! ## Lists and objects -/

/-- Reads the elements of a list after its first one, and the closing bracket. -/
def moreElements (read : Reader α) (cs : List Char) : Except Fault (Reading (List α) cs.length) :=
  match visible? cs with
  | none => .error .truncated
  | some c =>
    if c.value = ']' then
      .ok (c.map fun _ => [])
    else if c.value = ',' then
      match read c.rest with
      | .error fault => .error fault
      | .ok first =>
        match moreElements read first.rest with
        | .error fault => .error fault
        | .ok more => .ok (c.andThen (first.andThen (more.map (first.value :: ·)).weaken))
    else
      .error .malformed
termination_by cs.length
decreasing_by exact Nat.lt_of_lt_of_le first.bound c.bound

/-- Reads the elements of a list from behind its opening bracket through its closing one. -/
def elements (read : Reader α) : Reader (List α) := do
  match ← peek with
  | some ']' =>
    char ']'
    pure []
  | _ =>
    let first ← read
    let more ← fun cs => (moreElements read cs).map (·.weaken)
    pure (first :: more)

/-- Reads the members of an object after its first one, and the closing brace. Each member takes
the state that the ones before it led to. -/
def moreMembers (read : σ → Reader σ) (state : σ) (cs : List Char) :
    Except Fault (Reading σ cs.length) :=
  match visible? cs with
  | none => .error .truncated
  | some c =>
    if c.value = '\x7d' then
      .ok (c.map fun _ => state)
    else if c.value = ',' then
      match read state c.rest with
      | .error fault => .error fault
      | .ok first =>
        match moreMembers read first.value first.rest with
        | .error fault => .error fault
        | .ok more => .ok (c.andThen (first.andThen more.weaken))
    else
      .error .malformed
termination_by cs.length
decreasing_by exact Nat.lt_of_lt_of_le first.bound c.bound

/-- Reads the members of an object from behind its opening brace through its closing one. -/
def members (read : σ → Reader σ) (state : σ) : Reader σ := do
  match ← peek with
  | some '\x7d' =>
    char '\x7d'
    pure state
  | _ =>
    let first ← read state
    fun cs => (moreMembers read first cs).map (·.weaken)

/-! ## Whole documents -/

/-- Reads a text that holds one document and nothing else but white space. -/
def document (read : Reader α) (text : String) : Except Fault α :=
  match read text.toList with
  | .error fault => .error fault
  | .ok reading =>
    if (dropLayout reading.rest).isEmpty then .ok reading.value else .error .malformed

end Reader

end FilterScope.Json
