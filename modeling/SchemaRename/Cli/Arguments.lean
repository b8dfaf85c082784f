import SchemaRename.Run

/-!
# Command Line Arguments

What the person at the terminal asks for.

The program has one command, `migrate`, with three of its own. Options have a
long name and mostly a short one; a value is the next argument or is attached,
with an equals sign or, behind a short name, directly. An option may be given
once. A value that starts with a hyphen has to be attached, and there are no
arguments without a name.

Arguments are read from left to right, so the first thing that is wrong, or
the first request for help, decides.

## Main definitions

* `OptionKind`, `OptionSpec`: An option that a command knows.
* `UsageError`: What is wrong with the arguments.
* `readOptions`: The options that are given.
* `Command`, `Request`: What is asked for.
* `parseArguments`: The request behind some arguments.
-/

namespace SchemaRename.Cli

/-- The pages of help. -/
inductive HelpPage where
  | program
  | migrate
  | run
  | rules
  | catalog
deriving Repr, DecidableEq

/-- What is wrong with the arguments. -/
inductive UsageError where
  | noCommand (page : HelpPage)
  | unknownCommand (name : String)
  | unknownArgument (arg : String)
  | unexpectedValue (name : String)
  | missingValue (name : String)
  | repeated (name : String)
  | invalidValue (name value : String)
  | missingOption (name : String)
deriving Repr, DecidableEq

/-- What is wrong, in words. -/
def UsageError.message : UsageError → String
  | .noCommand _ => "error: a subcommand is required"
  | .unknownCommand name => "error: unrecognized subcommand '" ++ name ++ "'"
  | .unknownArgument arg => "error: unexpected argument '" ++ arg ++ "' found"
  | .unexpectedValue name => "error: unexpected value for '--" ++ name ++ "' found"
  | .missingValue name => "error: a value is required for '--" ++ name ++ "'"
  | .repeated name => "error: the argument '--" ++ name ++ "' cannot be used multiple times"
  | .invalidValue name value => "error: invalid value '" ++ value ++ "' for '--" ++ name ++ "'"
  | .missingOption name => "error: the argument '--" ++ name ++ "' is required"

/-- What an option takes. -/
inductive OptionKind where
  | text
  /-- True or false, spelled out. -/
  | bool
  /-- Nothing: the option is a switch. -/
  | switch
deriving Repr, DecidableEq

/-- An option that a command knows. -/
structure OptionSpec where
  long : String
  short : Option Char := none
  kind : OptionKind := .text
deriving Repr, DecidableEq

/-- The options that are given, by long name. A switch has no value. -/
abbrev Given := List (String × Option String)

/-- What reading options comes to. -/
inductive Reading where
  | options (given : Given)
  | help
deriving Repr, DecidableEq

/-- Checks the value of an option. -/
def OptionSpec.check (spec : OptionSpec) : Option String → Except UsageError Unit
  | some value =>
    if spec.kind == .bool && value != "true" && value != "false" then
      .error (.invalidValue spec.long value)
    else .ok ()
  | none => .ok ()

/-- Notes an option. It may be given once, and its value has to be of its
    kind. -/
def note (given : Given) (spec : OptionSpec) (value : Option String) :
    Except UsageError Given := do
  spec.check value
  if given.any (·.1 == spec.long) then throw (.repeated spec.long)
  return given ++ [(spec.long, value)]

/-- An option as it is written: its specification, and the value attached to
    it. -/
inductive Written where
  | help
  | option (spec : OptionSpec) (attached : Option String)
deriving Repr, DecidableEq

/-- Splits a long option at its first equals sign. -/
def splitAtEquals (s : List Char) : String × Option String :=
  let name := String.ofList (s.takeWhile (· != '='))
  match s.dropWhile (· != '=') with
  | [] => (name, none)
  | _ :: value => (name, some (String.ofList value))

/-- The option that an argument names. -/
def readWritten (specs : List OptionSpec) (arg : String) : Except UsageError Written :=
  match arg.toList with
  | '-' :: '-' :: rest =>
    let (name, attached) := splitAtEquals rest
    if name == "help" then
      if attached.isSome then .error (.unexpectedValue name) else .ok .help
    else
      match specs.find? (·.long == name) with
      | some spec => .ok (.option spec attached)
      | none => .error (.unknownArgument arg)
  | '-' :: letter :: rest =>
    match specs.find? (·.short == some letter) with
    | some spec =>
      match rest with
      | [] => .ok (.option spec none)
      | '=' :: value => .ok (.option spec (some (String.ofList value)))
      | value => .ok (.option spec (some (String.ofList value)))
    | none => if letter == 'h' then .ok .help else .error (.unknownArgument arg)
  | _ => .error (.unknownArgument arg)

/-- Whether an argument is an option and not a value. A lone hyphen is a
    value. -/
def looksLikeOption (arg : String) : Bool :=
  arg.toList.head? == some '-' && arg != "-"

/-- Reads the options of a command. -/
def readOptions (specs : List OptionSpec) (given : Given) :
    List String → Except UsageError Reading
  | [] => .ok (.options given)
  | ["--"] => .ok (.options given)
  | arg :: rest =>
    if arg == "--" then .error (.unknownArgument (rest.headD ""))
    else
      match readWritten specs arg with
      | .error e => .error e
      | .ok .help => .ok .help
      | .ok (.option spec attached) =>
        match spec.kind, attached, rest with
        | .switch, some _, _ => .error (.unexpectedValue spec.long)
        | .switch, none, rest => do readOptions specs (← note given spec none) rest
        | _, some value, rest => do readOptions specs (← note given spec value) rest
        | _, none, [] => .error (.missingValue spec.long)
        | _, none, value :: rest =>
          if looksLikeOption value then .error (.missingValue spec.long)
          else do readOptions specs (← note given spec value) rest

/-- The value of an option, if it is given. -/
def valueOf? (given : Given) (name : String) : Option String :=
  (given.lookup name).join

/-- The value of an option that has to be given. -/
def requiredValue (given : Given) (name : String) : Except UsageError String :=
  match valueOf? given name with
  | some value => .ok value
  | none => .error (.missingOption name)

/-- Whether an option that is true or false is true, which it is unless it is
    given as false. -/
def isTrue (given : Given) (name : String) : Bool :=
  valueOf? given name != some "false"

/-- What the program can do. -/
inductive Command where
  | run (config : String) (options : RunOptions)
  | rules (config fetch : String)
  | catalog (config fetch : String)
deriving Repr, DecidableEq

/-- What is asked for. -/
inductive Request where
  | command (c : Command)
  | help (page : HelpPage)
  | version
deriving Repr, DecidableEq

/-- The options of `migrate run`. -/
def runSpecs : List OptionSpec :=
  [ { long := "config", short := some 'c' },
    { long := "input", short := some 'i' },
    { long := "fetch", short := some 'f' },
    { long := "delete-files", short := some 'd', kind := .bool },
    { long := "copy-project", short := some 's', kind := .bool },
    { long := "dry-run", kind := .switch } ]

/-- The options of `migrate rules` and `migrate catalog`. -/
def querySpecs : List OptionSpec :=
  [ { long := "config", short := some 'c' },
    { long := "fetch", short := some 'f' } ]

/-- The command behind the options of `migrate run`. -/
def runCommand (given : Given) : Except UsageError Command := do
  let config ← requiredValue given "config"
  return .run config {
    inputFolder := (valueOf? given "input").getD "."
    expressions := parseExpressions (valueOf? given "fetch")
    deleteFiles := isTrue given "delete-files"
    copyProject := isTrue given "copy-project"
    dryRun := given.any (·.1 == "dry-run") }

/-- The command behind the options of a query. -/
def queryCommand (make : String → String → Command) (given : Given) :
    Except UsageError Command := do
  return make (← requiredValue given "config") (← requiredValue given "fetch")

/-- Reads the options of a command and builds it. -/
def parseCommand (specs : List OptionSpec) (page : HelpPage)
    (build : Given → Except UsageError Command) (args : List String) :
    Except UsageError Request := do
  match ← readOptions specs [] args with
  | .help => return .help page
  | .options given => return .command (← build given)

/-- The page that a list of command names stands for, below a page. -/
def pageOf? : HelpPage → List String → Option HelpPage
  | page, [] => some page
  | .program, "migrate" :: rest => pageOf? .migrate rest
  | .migrate, "run" :: rest => pageOf? .run rest
  | .migrate, "rules" :: rest => pageOf? .rules rest
  | .migrate, "catalog" :: rest => pageOf? .catalog rest
  | _, _ => none

/-- The request for the help of some commands. -/
def helpRequest (page : HelpPage) (names : List String) : Except UsageError Request :=
  match pageOf? page names with
  | some page => .ok (.help page)
  | none => .error (.unknownCommand (names.getLastD ""))

/-- The request behind the arguments of `migrate`. -/
def parseMigrate : List String → Except UsageError Request
  | [] => .error (.noCommand .migrate)
  | "run" :: args => parseCommand runSpecs .run runCommand args
  | "rules" :: args => parseCommand querySpecs .rules (queryCommand .rules) args
  | "catalog" :: args => parseCommand querySpecs .catalog (queryCommand .catalog) args
  | "help" :: names => helpRequest .migrate names
  | arg :: _ => do
    if !looksLikeOption arg then throw (.unknownCommand arg)
    match ← readWritten [] arg with
    | .help => return .help .migrate
    | .option _ _ => throw (.unknownArgument arg)

/-- The request behind the arguments of the program. -/
def parseArguments : List String → Except UsageError Request
  | [] => .error (.noCommand .program)
  | "migrate" :: args => parseMigrate args
  | "help" :: names => helpRequest .program names
  | "--version" :: _ => .ok .version
  | arg :: _ => do
    if !looksLikeOption arg then throw (.unknownCommand arg)
    match arg.toList with
    | '-' :: 'V' :: _ => return .version
    | _ =>
      match ← readWritten [] arg with
      | .help => return .help .program
      | .option _ _ => throw (.unknownArgument arg)

end SchemaRename.Cli
