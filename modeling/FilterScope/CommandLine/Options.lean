import FilterScope.Check.Config
import FilterScope.Text.Plain

/-!
# What the command line says

The arguments are read from left to right. An argument that begins with two hyphens names an
option, whose value follows an equals sign or is the next argument; any other argument is the
filter. A pair of hyphens alone ends the options. No option may be given twice.

**What counts first.** A value that follows an equals sign is looked at together with its option. An
option whose value is an argument of its own **waits** until the arguments go on with another
option or the filter, or end; only then is it found out whether the option has a value, whether the
value is admitted, and whether the option is given twice. So an argument that fits nowhere is
reported before a fault of the option that waits. A request for help or for the version is granted
as soon as nothing waits. That required options are missing is found out last.

The words for a fault quote arguments as plain text.
-/

namespace FilterScope.CommandLine

open Text

/-! ## Requests -/

/-- What to check, and how. -/
structure Options where
  /-- the path of the file with the type definitions -/
  schema : String
  /-- the type that the filter is checked for -/
  typeName : String
  /-- the type that an unknown field of a nested object is reported against -/
  nestedContext : NestedContext
  /-- the path of the file with message templates -/
  messages : Option String
  /-- the filter -/
  filter : String
  deriving DecidableEq, Repr

/-- What the command line asks for. -/
inductive Request where
  /-- a check -/
  | check (options : Options)
  /-- a description of the command line -/
  | help
  /-- the name and version of the program -/
  | version
  deriving DecidableEq, Repr

/-- What is wrong with a command line. -/
inductive UsageFault where
  /-- an option that does not exist, or a second filter -/
  | unexpectedArgument (argument : String)
  /-- a value for an option that takes none -/
  | unexpectedValue (value option : String)
  /-- an option without its value -/
  | missingValue (option : String)
  /-- a value that an option does not admit -/
  | invalidValue (value option : String)
  /-- an option that is given twice -/
  | repeatedOption (option : String)
  /-- options that must be given and are not -/
  | missingArguments (arguments : List String)
  deriving DecidableEq, Repr

/-- The words for a fault. -/
def UsageFault.message : UsageFault → String
  | .unexpectedArgument argument => s!"unexpected argument '{plain argument}' found"
  | .unexpectedValue value option =>
    s!"unexpected value '{plain value}' for '{option}' found; no more were expected"
  | .missingValue option => s!"a value is required for '{option}' but none was supplied"
  | .invalidValue value option => s!"invalid value '{plain value}' for '{option}'"
  | .repeatedOption option => s!"the argument '{option}' cannot be used multiple times"
  | .missingArguments arguments =>
    "the following required arguments were not provided:" ++
      String.join (arguments.map fun argument => "\n  " ++ argument)

/-! ## Options -/

/-- The options that take a value. -/
inductive OptionName where
  | schema
  | typeName
  | nestedContext
  | messages
  deriving DecidableEq, Repr

/-- How an option is written, without its hyphens. -/
def OptionName.word : OptionName → String
  | .schema => "schema"
  | .typeName => "type"
  | .nestedContext => "nested-context"
  | .messages => "messages"

/-- How an option is shown. -/
def OptionName.usage : OptionName → String
  | .schema => "--schema <FILE>"
  | .typeName => "--type <NAME>"
  | .nestedContext => "--nested-context <NESTED_CONTEXT>"
  | .messages => "--messages <FILE>"

/-- The option that is written in a given way. -/
def OptionName.ofWord? (word : String) : Option OptionName :=
  [.schema, .typeName, .nestedContext, .messages].find? fun name : OptionName => name.word == word

/-- What the arguments read so far have given. -/
structure Given where
  /-- the path of the file with the type definitions -/
  schema : Option String
  /-- the type that the filter is checked for -/
  typeName : Option String
  /-- the type to report against -/
  nestedContext : Option NestedContext
  /-- the path of the file with message templates -/
  messages : Option String
  /-- the filter -/
  filter : Option String
  /-- the option that waits, with the argument behind it -/
  waiting : Option (OptionName × Option String)

namespace Given

/-- Nothing is given. -/
def none : Given := ⟨.none, .none, .none, .none, .none, .none⟩

/-- The path that a value names; the empty value names none. -/
def path (name : OptionName) (value : String) : Except UsageFault String :=
  if value.isEmpty then .error (.missingValue name.usage) else .ok value

/-- The type to report against that a value names. -/
def context (name : OptionName) (value : String) : Except UsageFault NestedContext :=
  match value with
  | "" => .error (.missingValue name.usage)
  | "root" => .ok .rootType
  | "nested" => .ok .nestedType
  | _ => .error (.invalidValue value name.usage)

/-- Whether an option is given. -/
def has (given : Given) : OptionName → Bool
  | .schema => given.schema.isSome
  | .typeName => given.typeName.isSome
  | .nestedContext => given.nestedContext.isSome
  | .messages => given.messages.isSome

/-- Gives an option its value. -/
def set (given : Given) (name : OptionName) (value : String) : Except UsageFault Given :=
  if given.has name then
    .error (.repeatedOption name.usage)
  else
    match name with
    | .schema => (path name value).map fun file => { given with schema := file }
    | .typeName => .ok { given with typeName := value }
    | .nestedContext => (context name value).map fun c => { given with nestedContext := c }
    | .messages => (path name value).map fun file => { given with messages := file }

/-- Gives the option that waits its value. -/
def settle (given : Given) : Except UsageFault Given :=
  match given.waiting with
  | .none => .ok given
  | some (name, .none) => .error (.missingValue name.usage)
  | some (name, some value) => { given with waiting := .none }.set name value

/-- Gives an option with the value behind its equals sign, or lets it wait for one. -/
def setOption (given : Given) (name : OptionName) (value : Option String) :
    Except UsageFault Given :=
  match given.settle with
  | .error fault => .error fault
  | .ok given =>
    match value with
    | .none => .ok { given with waiting := some (name, .none) }
    | some value => given.set name value

/-- Gives the filter, of which there is one. -/
def setFilter (given : Given) (filter : String) : Except UsageFault Given :=
  if given.filter.isSome then
    .error (.unexpectedArgument filter)
  else
    given.settle.map fun given => { given with filter := filter }

/-- Gives an argument to the option that waits for one, or else takes it for the filter. -/
def setPlain (given : Given) (argument : String) : Except UsageFault Given :=
  match given.waiting with
  | some (name, .none) => .ok { given with waiting := some (name, some argument) }
  | _ => given.setFilter argument

/-- Grants a request that an option makes, once nothing waits; such an option takes no value. -/
def grant (given : Given) (request : Request) (usage : String) :
    Option String → Except UsageFault Request
  | .none => given.settle.map fun _ => request
  | some value => .error (.unexpectedValue value usage)

/-- The check that is asked for. -/
def finish (given : Given) : Except UsageFault Request :=
  match given.settle with
  | .error fault => .error fault
  | .ok given =>
    match given.schema, given.typeName, given.filter with
    | some schema, some typeName, some filter =>
      .ok (.check ⟨schema, typeName, given.nestedContext.getD .rootType, given.messages, filter⟩)
    | schema, typeName, filter =>
      .error (.missingArguments <|
        (if schema.isNone then [OptionName.usage .schema] else []) ++
          (if typeName.isNone then [OptionName.usage .typeName] else []) ++
            (if filter.isNone then ["<FILTER>"] else []))

end Given

/-! ## Arguments -/

/-- What kind of argument an argument is. -/
inductive Argument where
  /-- the end of the options -/
  | separator
  /-- an option by its word, with the value after an equals sign -/
  | long (word : String) (value : Option String)
  /-- an option by its letter, the first of those after one hyphen -/
  | short (letter : Char)
  /-- the filter, or a value; a hyphen alone is one too -/
  | plain
  deriving DecidableEq, Repr

/-- What kind of argument an argument is. -/
def Argument.ofString (argument : String) : Argument :=
  match argument.toList with
  | ['-', '-'] => .separator
  | '-' :: '-' :: cs =>
    let word := String.ofList (cs.takeWhile (· != '='))
    match cs.dropWhile (· != '=') with
    | [] => .long word none
    | _ :: value => .long word (some (String.ofList value))
  | '-' :: c :: _ => .short c
  | _ => .plain

/-- Reads arguments that can only be the filter. -/
def readPlain (given : Given) : List String → Except UsageFault Request
  | [] => given.finish
  | argument :: more =>
    match given.setFilter argument with
    | .error fault => .error fault
    | .ok given => readPlain given more

/-- Reads arguments. -/
def readArguments (given : Given) : List String → Except UsageFault Request
  | [] => given.finish
  | argument :: more =>
    match Argument.ofString argument with
    | .separator => readPlain given more
    | .short 'h' => given.grant .help "--help" none
    | .short 'V' => given.grant .version "--version" none
    | .short letter => .error (.unexpectedArgument (String.ofList ['-', letter]))
    | .long "help" value => given.grant .help "--help" value
    | .long "version" value => given.grant .version "--version" value
    | .long word value =>
      match OptionName.ofWord? word with
      | none => .error (.unexpectedArgument ("--" ++ word))
      | some name =>
        match given.setOption name value with
        | .error fault => .error fault
        | .ok given => readArguments given more
    | .plain =>
      match given.setPlain argument with
      | .error fault => .error fault
      | .ok given => readArguments given more

/-- The request that the arguments of a command line make. -/
def Request.ofArguments (arguments : List String) : Except UsageFault Request :=
  readArguments .none arguments

end FilterScope.CommandLine
