import FilterScope.Json.Number

/-!
# JSON values of any shape

Where a format does not say what value stands in a place, the value is read as a whole, as a
`Value`, and looked at afterwards. Lists and objects may then be nested up to a given number of
levels. A value that nobody wants is skipped by the same reader, with less care and without a
limit.

`mismatch` is what a reader does when the value in front of it is not of the kind it expects. A
list or object is refused at its first character; any other value is read first, so that a fault
inside it comes before the complaint about its kind.
-/

namespace FilterScope.Json

/-- A JSON value. What number a number is plays no part in any format and is not kept. -/
inductive Value where
  | null
  | bool (b : Bool)
  | number
  | text (s : String)
  | list (items : List Value)
  | object (members : List (String × Value))

namespace Reader

variable {α σ : Type}

/-- Reads one member of an object. Its key chooses how its value is read, or refuses it. -/
def member (care : Care) (choose : String → Except Fault (Reader α)) : Reader α := do
  let _ ← peek
  let key ← quoted care
  let read ← ofExcept (choose key)
  mark ':'
  read

/-- Reads one of the three words that are values. -/
def word : Reader Value := do
  match ← next with
  | some 'n' =>
    exactly ['n', 'u', 'l', 'l']
    pure .null
  | some 't' =>
    exactly ['t', 'r', 'u', 'e']
    pure (.bool true)
  | some 'f' =>
    exactly ['f', 'a', 'l', 's', 'e']
    pure (.bool false)
  | some _ => fail .malformed
  | none => fail .truncated

/-- Reads a value of any kind. The values in a list or object are read by `inner`; without it, lists
and objects are refused. -/
def valueWith (care : Care) (inner : Option (Reader Value)) : Reader Value := do
  match ← peek, inner with
  | some '"', _ => .text <$> quoted care
  | some '[', none => fail .malformed
  | some '[', some read =>
    char '['
    .list <$> elements read
  | some '\x7b', none => fail .malformed
  | some '\x7b', some read =>
    char '\x7b'
    .object <$> members (fun entries => member care fun key =>
      .ok ((fun v => entries ++ [(key, v)]) <$> read)) []
  | some c, _ =>
    if c = '-' ∨ c.isDigit then do
      number care
      pure .number
    else
      word
  | none, _ => fail .truncated

/-- Reads a value of any kind, in which lists and objects may be nested up to `levels` deep. -/
def value (care : Care) : (levels : Nat) → Reader Value
  | 0 => valueWith care none
  | levels + 1 => valueWith care (some (value care levels))

/-- Skips a value of any kind and depth. -/
def skip : Reader Unit := fun cs =>
  (value .skipped (cs.length + 1) cs).map (·.map fun _ => ())

/-! ## Values of an expected kind -/

/-- Fails at a value that is not of the expected kind. -/
def mismatch : Reader α := do
  match ← peek with
  | some '[' => fail .misshapen
  | some '\x7b' => fail .misshapen
  | _ =>
    let _ ← value .kept 0
    fail .misshapen

/-- Reads a string. -/
def string : Reader String := do
  match ← peek with
  | some '"' => quoted .kept
  | _ => mismatch

/-- Reads the word `null`. -/
def null : Reader Unit := do
  match ← peek with
  | some 'n' => exactly ['n', 'u', 'l', 'l']
  | _ => mismatch

/-- Reads a value that may be `null` instead. -/
def optional (read : Reader α) : Reader (Option α) := do
  match ← peek with
  | some 'n' =>
    null
    pure none
  | _ => some <$> read

/-- Reads a list. -/
def list (read : Reader α) : Reader (List α) := do
  match ← peek with
  | some '[' =>
    char '['
    elements read
  | _ => mismatch

/-- Reads an object whose members change a state, each in a way that its key chooses. -/
def object (choose : σ → String → Except Fault (Reader σ)) (state : σ) : Reader σ := do
  match ← peek with
  | some '\x7b' =>
    char '\x7b'
    members (fun state => member .kept (choose state)) state
  | _ => mismatch

/-- The value that a word stands for. -/
def chosen (choices : List (String × α)) (word : String) : Except Fault α :=
  match choices.lookup word with
  | none => .error .misshapen
  | some a => .ok a

/-- Reads one of several words: as a string, or as an object whose one member has the word for its
key and `null` for its value. -/
def choice (choices : List (String × α)) : Reader α := do
  match ← peek with
  | none => fail .truncated
  | some '"' =>
    let word ← quoted .kept
    ofExcept (chosen choices word)
  | some '\x7b' =>
    char '\x7b'
    let _ ← peek
    let word ← quoted .kept
    let a ← ofExcept (chosen choices word)
    mark ':'
    null
    mark '\x7d'
    pure a
  | some _ => fail .malformed

end Reader

end FilterScope.Json
