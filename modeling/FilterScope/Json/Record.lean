import FilterScope.Json.Value

/-!
# Records in JSON

A record is a value with a fixed set of named parts. It is written as an object, whose keys are
the names of the parts in any order, or as a list of the parts in the order in which they are
declared. Parts may be left out: in an object any of them, in a list those at the end. Whether a
record may do without a part is decided when all of it has been read.

No part may be given twice. Names that the record does not have are refused or skipped, as the
record says.
-/

namespace FilterScope.Json

/-- One part of a record whose parts are collected in a `σ`. -/
structure Part (σ : Type) where
  /-- the name of the part -/
  name : String
  /-- whether the part has been read -/
  isRead : σ → Bool
  /-- reads the part -/
  read : σ → Reader σ

/-- What to do with a name that a record does not have. -/
inductive Surplus where
  /-- it is a fault -/
  | refused
  /-- it is passed over, with its value -/
  | skipped
  deriving DecidableEq, Repr

/-- How a record is written. -/
structure Record (σ α : Type) where
  /-- the parts, in the order of their declaration -/
  parts : List (Part σ)
  /-- what to do with other names -/
  surplus : Surplus
  /-- nothing read yet -/
  initial : σ
  /-- the value of a record that is read; none if a part is missing that it cannot do without -/
  finish : σ → Option α

namespace Record

variable {σ α : Type}

/-- How the member with a given key is read. -/
def choose (record : Record σ α) (state : σ) (key : String) : Except Fault (Reader σ) :=
  match record.parts.find? (·.name == key), record.surplus with
  | some part, _ => if part.isRead state then .error .misshapen else .ok (part.read state)
  | none, .refused => .error .misshapen
  | none, .skipped => .ok (Reader.skip *> pure state)

/-- Reads parts in their order, separated by commas, and the closing bracket. -/
def readParts (state : σ) (isFirst : Bool) : List (Part σ) → Reader σ
  | [] => do
    Reader.mark ']'
    pure state
  | part :: parts => do
    match ← Reader.peek with
    | none => .fail .truncated
    | some ']' =>
      Reader.char ']'
      pure state
    | some _ =>
      if !isFirst then
        Reader.char ','
      let state ← part.read state
      readParts state false parts

/-- The value of a record, or the fault of one that lacks a part. -/
def value (record : Record σ α) (state : σ) : Reader α :=
  match record.finish state with
  | none => .fail .misshapen
  | some a => pure a

/-- Reads a record in either form. -/
def read (record : Record σ α) : Reader α := do
  match ← Reader.peek with
  | some '\x7b' =>
    Reader.char '\x7b'
    let state ← Reader.members (fun state => Reader.member .kept (record.choose state))
      record.initial
    record.value state
  | some '[' =>
    Reader.char '['
    let state ← readParts record.initial true record.parts
    record.value state
  | _ => Reader.mismatch

end Record

end FilterScope.Json
