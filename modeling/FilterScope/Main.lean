import FilterScope.CommandLine.Run

/-!
# The command line

The outermost layer: it reads the files that the command line names, runs the pure program on
them and prints its report. Every decision is made in `CommandLine.run`.
-/

namespace FilterScope

open CommandLine File

/-- The reason that the system gives for not reading a file. -/
def File.ReadFault.ofError : IO.Error → ReadFault
  | .noFileOrDirectory _ _ _ => .missing
  | .inappropriateType _ 20 _ => .notDirectory
  | .inappropriateType _ 21 _ => .directory
  | .invalidArgument _ 36 _ => .nameTooLong
  | .permissionDenied _ code _ => .system "Permission denied" code.toNat
  | error => .system (toString error) 0

/-- What reading a file gives. -/
def readContents (path : String) : IO Contents := do
  try
    return .ok (← IO.FS.readBinFile path)
  catch error =>
    return .error (ReadFault.ofError error)

/-- The paths of the files that a command line names. -/
def pathsOf (arguments : List String) : List String :=
  match Request.ofArguments arguments with
  | .ok (.check options) => options.messages.toList ++ [options.schema]
  | _ => []

end FilterScope

open FilterScope in
/-- Reads the files, runs the program and reports. -/
def main (arguments : List String) : IO UInt32 := do
  let files ← (pathsOf arguments).mapM fun path => return (path, ← readContents path)
  let report := CommandLine.run (fun path => (files.lookup path).getD (.error .missing)) arguments
  (← IO.getStdout).putStr report.output
  (← IO.getStderr).putStr report.diagnostics
  return report.exitCode.toUInt32
