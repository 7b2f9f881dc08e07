import FilterScope.File.Contents
import FilterScope.Text.Pieces

/-!
# Directories as values

A `Tree` is a file, or a directory of named trees. A `Place` is a tree together with the directories
around it, so that a path can lead out of a directory as well as into it.

A path is a list of names with slashes between them, and is followed name by name. Each name is
looked for where the names before it have led, which must be a directory; so the first name that
does not fit decides how a path fails. Two names are not looked for: one dot, or nothing at all,
stays where it is, and two dots lead to the directory around. A path that begins with a slash is
followed from the outermost directory, outside which there is nothing.
-/

namespace FilterScope.File

/-! ## Trees -/

/-- What can stand under a name. -/
inductive Tree where
  /-- a file with its bytes -/
  | file (bytes : ByteArray)
  /-- a directory with what stands in it; the first entry of a name counts -/
  | directory (entries : List (String × Tree))

namespace Tree

/-- The directory with nothing in it. -/
def empty : Tree := .directory []

/-- The entries of a directory; a file has none. -/
def entries : Tree → List (String × Tree)
  | .file _ => []
  | .directory entries => entries

/-- Puts a tree at the end of a list of names, and makes the directories on the way there. -/
def put (tree node : Tree) : (names : List String) → Tree
  | [] => node
  | name :: names =>
    let inner := (tree.entries.lookup name).getD empty
    .directory ((name, inner.put node names) :: tree.entries.filter (·.1 != name))

end Tree

/-! ## Places -/

/-- A tree, and the directories around it. -/
structure Place where
  /-- what stands here -/
  tree : Tree
  /-- the directories around it, the innermost first -/
  around : List Tree

namespace Place

/-- The outermost directory. -/
def root (place : Place) : Place :=
  ⟨place.around.getLastD place.tree, []⟩

/-- The longest name that can be looked for, in bytes. -/
def longestName : Nat := 255

/-- The longest path that can be followed, in bytes. -/
def longestPath : Nat := 4095

/-- Looks for a name in a directory. -/
def enter (place : Place) (name : String) : Except ReadFault Place :=
  match place.tree with
  | .file _ => .error .notDirectory
  | .directory entries =>
    if name = "" ∨ name = "." then
      .ok place
    else if name = ".." then
      match place.around with
      | [] => .ok place
      | outer :: around => .ok ⟨outer, around⟩
    else if longestName < name.utf8ByteSize then
      .error .nameTooLong
    else
      match entries.lookup name with
      | none => .error .missing
      | some tree => .ok ⟨tree, place.tree :: place.around⟩

/-- Looks for one name after the other. -/
def follow (place : Place) : List String → Except ReadFault Place
  | [] => .ok place
  | name :: names =>
    match place.enter name with
    | .error fault => .error fault
    | .ok next => next.follow names

/-- The place that a path leads to. The empty path leads nowhere. -/
def find (place : Place) (path : String) : Except ReadFault Place :=
  if path = "" then
    .error .missing
  else if longestPath < path.utf8ByteSize then
    .error .nameTooLong
  else
    let names := (Text.cutAt '/' path.toList).map String.ofList
    if path.toList.head? = some '/' then place.root.follow names else place.follow names

/-- What reading the file at a path gives. -/
def read (place : Place) : FileSystem := fun path =>
  match place.find path with
  | .error fault => .error fault
  | .ok found =>
    match found.tree with
    | .file bytes => .ok bytes
    | .directory _ => .error .directory

end Place

end FilterScope.File
