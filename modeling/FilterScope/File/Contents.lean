/-!
# Files as texts

Reading a file gives its bytes or a reason why there are none. The bytes are a text only if they
are UTF-8. Where the bytes come from is left open: a `FileSystem` is any function from paths to
what reading them gives.
-/

namespace FilterScope.File

/-- Why a file cannot be read as a text. -/
inductive ReadFault where
  /-- the system refuses, with a description and the number of its error -/
  | system (description : String) (code : Nat)
  /-- the bytes of the file are not UTF-8 -/
  | notText
  deriving DecidableEq, Repr

namespace ReadFault

/-- Nothing stands at the path. -/
def missing : ReadFault := .system "No such file or directory" 2

/-- The path goes on behind a file. -/
def notDirectory : ReadFault := .system "Not a directory" 20

/-- A directory stands at the path. -/
def directory : ReadFault := .system "Is a directory" 21

/-- The path, or a name in it, is longer than the system allows. -/
def nameTooLong : ReadFault := .system "File name too long" 36

/-- The words for a file that cannot be read. -/
def message : ReadFault → String
  | .system description code => s!"{description} (os error {code})"
  | .notText => "stream did not contain valid UTF-8"

end ReadFault

/-- What reading a file gives. -/
abbrev Contents : Type := Except ReadFault ByteArray

/-- What reading the file at each path gives. -/
abbrev FileSystem : Type := String → Contents

/-- The text of a file. -/
def Contents.text : Contents → Except ReadFault String
  | .error fault => .error fault
  | .ok bytes => (String.fromUTF8? bytes).elim (.error .notText) .ok

end FilterScope.File
