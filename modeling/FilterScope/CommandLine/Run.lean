import FilterScope.Check.Validator
import FilterScope.CommandLine.Options
import FilterScope.Message.Document
import FilterScope.Schema.Document

/-!
# What the command line answers

A check goes through three stages, and the first that fails is reported: the file with the messages
is read, if one is named; then the file with the type definitions; then the filter is checked for
the named type.

The `Report` says how it ended. The exit code is 0 for a valid filter, 1 for an invalid one, whose
message is printed, and 2 if no answer could be found; then nothing is printed and the reason goes
to the diagnostics. Nothing is read or written here: the files are given, and the report is a
value.
-/

namespace FilterScope.CommandLine

open File

/-! ## Reports -/

/-- How the program ends. -/
structure Report where
  /-- what it tells its caller -/
  exitCode : Nat
  /-- what it prints -/
  output : String
  /-- what it says about its own failure -/
  diagnostics : String
  deriving DecidableEq, Repr

/-- The report of a failure. -/
def Report.failure (message : String) : Report := ⟨2, "", "error: " ++ message ++ "\n"⟩

/-- The report of a text that is printed. -/
def Report.printed (exitCode : Nat) (text : String) : Report := ⟨exitCode, text ++ "\n", ""⟩

/-! ## Checks -/

/-- Why a check has no outcome. -/
inductive CheckFault where
  /-- the file with the messages cannot be read -/
  | unreadableMessages (path : String) (fault : ReadFault)
  /-- the file with the messages is not a catalog -/
  | illFormedMessages (path : String) (fault : Json.Fault)
  /-- the file with the type definitions makes no registry -/
  | unloadableSchema (path : String) (fault : LoadFault)
  /-- the type is not defined -/
  | unknownType (fault : UnknownType)
  deriving DecidableEq, Repr

/-- The words for a fault in loading a registry, and for the fault that caused it. -/
def explained (fault : LoadFault) : String :=
  match fault with
  | .unreadable cause => fault.message ++ ": " ++ cause.message
  | .illFormed cause => fault.message ++ ": " ++ cause.message
  | .invalid _ => fault.message

/-- The words for a fault. -/
def CheckFault.message : CheckFault → String
  | .unreadableMessages path fault => s!"failed to read {path}: {fault.message}"
  | .illFormedMessages path fault => s!"failed to parse {path}: {fault.message}"
  | .unloadableSchema path fault => s!"failed to load schemas from {path}: {explained fault}"
  | .unknownType fault => fault.message

/-- The catalog of a file; without a file, the English one. -/
def loadCatalog (files : FileSystem) : Option String → Except CheckFault Catalog
  | none => .ok .english
  | some path =>
    match (files path).text with
    | .error fault => .error (.unreadableMessages path fault)
    | .ok text =>
      match Catalog.ofDocument text with
      | .error fault => .error (.illFormedMessages path fault)
      | .ok catalog => .ok catalog

/-- The registry of a file. -/
def loadRegistry (files : FileSystem) (path : String) : Except CheckFault (Registry Empty) :=
  match Registry.ofFile (files path) with
  | .error fault => .error (.unloadableSchema path fault)
  | .ok registry => .ok registry

/-- The catalog to report with, and the outcome of the check. -/
def check (files : FileSystem) (options : Options) : Except CheckFault (Catalog × Outcome) :=
  match loadCatalog files options.messages with
  | .error fault => .error fault
  | .ok catalog =>
    match loadRegistry files options.schema with
    | .error fault => .error fault
    | .ok registry =>
      match Validator.check ⟨registry, ⟨options.nestedContext⟩⟩ options.filter options.typeName with
      | .error fault => .error (.unknownType fault)
      | .ok outcome => .ok (catalog, outcome)

/-- The report of a check. -/
def report : Except CheckFault (Catalog × Outcome) → Report
  | .error fault => .failure fault.message
  | .ok (_, .valid) => .printed 0 "valid"
  | .ok (catalog, .invalid violation) => .printed 1 (catalog.render violation)

/-! ## The program -/

/-- The name and version of the program. -/
def versionText : String := "filter-check 0.1.0"

/-- The description of the command line. -/
def helpText : String :=
  String.intercalate "\n"
    ["Checks that a filter only references fields of a schema type",
     "",
     "Usage: filter-check [OPTIONS] --schema <FILE> --type <NAME> <FILTER>",
     "",
     "Arguments:",
     "  <FILTER>  Filter to validate, e.g. \"age==12 and address.city==Liege\"",
     "",
     "Options:",
     "  --schema <FILE>                    JSON file with the schema definitions",
     "  --type <NAME>                      Type the filter is checked against",
     "  --nested-context <NESTED_CONTEXT>  Type reported for unknown fields inside a nested " ++
       "object [default: root] [possible values: root, nested]",
     "  --messages <FILE>                  JSON file overriding the default message templates",
     "  -h, --help                         Print help",
     "  -V, --version                      Print version"]

/-- What the program does with its arguments. -/
def run (files : FileSystem) (arguments : List String) : Report :=
  match Request.ofArguments arguments with
  | .error fault => .failure fault.message
  | .ok .help => .printed 0 helpText
  | .ok .version => .printed 0 versionText
  | .ok (.check options) => report (check files options)

end FilterScope.CommandLine
