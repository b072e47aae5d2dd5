import PartitionSnapshot.FileTree.Path

/-!
# Arguments

The arguments of the program are options, the name of a command and the operand of the command, in
this order. An option may be given once. Its value is the next argument or is attached to it, by an
equals sign or, after an option of one letter, directly. What begins with a dash is an option,
unless it is a single dash or stands behind `--` and the name of a command.
-/

namespace PartitionSnapshot.CommandLine

/-! ## Commands and options -/

/-- What the program can do. -/
inductive Operation where
  /-- Load a partition and summarize it. -/
  | inspect
  /-- Recompute the checksums of a snapshot and compare them with the recorded ones. -/
  | verify
  /-- Print the apply position of a snapshot. -/
  | dumpApply
  deriving DecidableEq, Repr, Inhabited

/-- The names of the operations. -/
def operations : List (String × Operation) :=
  [("inspect", .inspect), ("verify", .verify), ("dump-apply", .dumpApply)]

/-- What an option sets or asks for. -/
inductive Switch where
  | config
  | logLevel
  | noVerify
  | json
  | help
  | version
  deriving DecidableEq, Repr

/-- The names of the options. -/
def switches : List (String × Switch) :=
  [("-c", .config), ("--config", .config), ("--log-level", .logLevel),
   ("--no-verify", .noVerify), ("--json", .json), ("-h", .help), ("--help", .help),
   ("-V", .version), ("--version", .version)]

/-- The options that were given. -/
structure Given where
  /-- The path of the settings file. -/
  config : Option Path := none
  logLevel : Option String := none
  noVerify : Bool := false
  json : Bool := false
  deriving DecidableEq, Repr, Inhabited

/-- What is asked of the program. -/
inductive Invocation where
  /-- Do something with the directory that is the operand. -/
  | run (given : Given) (operation : Operation) (operand : Path)
  /-- Describe the program, or one of its commands. -/
  | help (topic : Option Operation)
  /-- Describe the command that describes commands. -/
  | helpOnHelp
  | version
  deriving DecidableEq, Repr

/-- Why arguments are refused. -/
inductive UsageError where
  | unexpected (argument : String)
  | missingValue (option : String)
  | emptyValue (name : String)
  | unneededValue (option : String)
  | repeated (option : String)
  | unknownCommand (name : String)
  | missingCommand
  | missingOperand
  deriving DecidableEq, Repr

/-- The error in words. -/
def UsageError.message : UsageError → String
  | .unexpected argument => s!"unexpected argument '{argument}' found"
  | .missingValue option => s!"a value is required for '{option}' but none was supplied"
  | .emptyValue name => s!"a value is required for '{name}' but it is empty"
  | .unneededValue option => s!"unexpected value for '{option}' found; no more were expected"
  | .repeated option => s!"the argument '{option}' cannot be used multiple times"
  | .unknownCommand name => s!"unrecognized subcommand '{name}'"
  | .missingCommand => "a command is required"
  | .missingOperand => "the operand of the command is missing"

/-! ## Reading -/

/-- An argument that has the form of an option: its name with the dashes, and the value that is
attached to it. -/
def option? (argument : String) : Option (String × Option String) :=
  match argument.toList with
  | '-' :: '-' :: rest =>
    let name := rest.takeWhile (· ≠ '=')
    some (String.ofList ('-' :: '-' :: name),
      (rest.dropWhile (· ≠ '=')).tail?.map String.ofList)
  | '-' :: letter :: rest =>
    let value :=
      match rest with
      | [] => none
      | '=' :: value => some (String.ofList value)
      | value => some (String.ofList value)
    some (String.ofList ['-', letter], value)
  | _ => none

/-- Takes an option with its value. -/
def Given.set (given : Given) (name : String) (switch : Switch) (value : String) :
    Except UsageError Given :=
  match switch with
  | .config =>
    if given.config.isSome then .error (.repeated name)
    else if value.isEmpty then .error (.emptyValue name)
    else .ok { given with config := some ⟨value⟩ }
  | .logLevel =>
    if given.logLevel.isSome then .error (.repeated name)
    else .ok { given with logLevel := some value }
  | _ => .error (.unneededValue name)

/-- Takes an option that has no value. -/
def Given.mark (given : Given) (name : String) (switch : Switch) : Except UsageError Given :=
  match switch with
  | .noVerify =>
    if given.noVerify then .error (.repeated name) else .ok { given with noVerify := true }
  | .json =>
    if given.json then .error (.repeated name) else .ok { given with json := true }
  | _ => .error (.missingValue name)

/-- What an option asks for instead of a command. Letters may follow the letter of such an option,
and go unread. -/
def request? (name : String) (value : Option String) (topic : Option Operation)
    (switch : Switch) : Option (Except UsageError Invocation) :=
  let refused := value.isSome && name.startsWith "--"
  match switch with
  | .help => some (if refused then .error (.unneededValue name) else .ok (.help topic))
  | .version => some (if refused then .error (.unneededValue name) else .ok .version)
  | _ => none

/-- Reads the arguments behind the name of a command. `plain` says that `--` was among them, and
`operand` is the operand, once it was. -/
def readOperand (given : Given) (operation : Operation) (plain : Bool) (operand : Option Path) :
    List String → Except UsageError Invocation
  | [] =>
    match operand with
    | some operand => .ok (.run given operation operand)
    | none => .error .missingOperand
  | argument :: rest =>
    if !plain && argument == "--" then readOperand given operation true operand rest
    else
      match if plain then none else option? argument with
      | some (name, value) =>
        match switches.lookup name with
        | some .help =>
          (request? name value (some operation) .help).getD (.error (.unexpected argument))
        | _ => .error (.unexpected argument)
      | none =>
        if operand.isSome then .error (.unexpected argument)
        else if argument.isEmpty then .error (.emptyValue "operand")
        else readOperand given operation plain (some ⟨argument⟩) rest

/-- What the arguments behind the command that describes commands ask for. -/
def readTopic : List String → Except UsageError Invocation
  | [] => .ok (.help none)
  | name :: rest =>
    match operations.lookup name, rest with
    | some operation, [] => .ok (.help (some operation))
    | some _, other :: _ => .error (.unknownCommand other)
    | none, _ => if name = "help" ∧ rest.isEmpty then .ok .helpOnHelp
                 else .error (.unknownCommand name)

/-- Reads the rest of the arguments, after the options that were given. -/
def readFrom (given : Given) : List String → Except UsageError Invocation
  | [] => .error .missingCommand
  | argument :: rest =>
    match operations.lookup argument, option? argument with
    | some operation, _ => readOperand given operation false none rest
    | none, none =>
      if argument = "help" then readTopic rest else .error (.unknownCommand argument)
    | none, some (name, value) =>
      match switches.lookup name with
      | none => .error (.unexpected argument)
      | some switch =>
        match request? name value none switch, value, switch with
        | some answer, _, _ => answer
        | none, some value, _ => do readFrom (← given.set name switch value) rest
        | none, none, .config | none, none, .logLevel =>
          match rest with
          | [] => .error (.missingValue name)
          | value :: rest =>
            if (option? value).isSome then .error (.missingValue name)
            else do readFrom (← given.set name switch value) rest
        | none, none, _ => do readFrom (← given.mark name switch) rest

/-- What the arguments ask for. -/
def read (arguments : List String) : Except UsageError Invocation :=
  readFrom {} arguments

/-! ## Descriptions -/

/-- The name and version of the program. -/
def versionText : String := "metanode-snapshot 0.1.0\n"

/-- The description of the program. -/
def overview : List String := [
  "Inspect metanode partition snapshots",
  "",
  "Usage: metanode-snapshot [OPTIONS] <COMMAND>",
  "",
  "Commands:",
  "  inspect     Load a partition and summarize it",
  "  verify      Recompute snapshot checksums and compare them with `.sign`",
  "  dump-apply  Print the apply file of a snapshot directory",
  "  help        Print this message or the help of the given subcommand(s)",
  "",
  "Options:",
  "  -c, --config <CONFIG>        Configuration file path",
  "      --log-level <LOG_LEVEL>  Log level [default: warn]",
  "      --no-verify              Skip the `.sign` comparison on load",
  "      --json                   Print results as JSON",
  "  -h, --help                   Print help",
  "  -V, --version                Print version"]

/-- The description of a command, from what it does and what its operand is. -/
def describe (name about operand what : String) : List String := [
  about,
  "",
  s!"Usage: metanode-snapshot {name} <{operand}>",
  "",
  "Arguments:",
  s!"  <{operand}>  {what}",
  "",
  "Options:",
  "  -h, --help  Print help"]

/-- The lines that describe a topic. -/
def helpLines : Option Operation → List String
  | none => overview
  | some .inspect =>
    describe "inspect" "Load a partition and summarize it" "ROOT"
      "Partition root directory (holds `meta` and `snapshot/`)"
  | some .verify =>
    describe "verify" "Recompute snapshot checksums and compare them with `.sign`" "ROOT"
      "Partition root directory"
  | some .dumpApply =>
    describe "dump-apply" "Print the apply file of a snapshot directory" "DIR"
      "Snapshot directory"

/-- The lines that describe the command that describes commands. -/
def helpOnHelpLines : List String := [
  "Print this message or the help of the given subcommand(s)",
  "",
  "Usage: metanode-snapshot help [COMMAND]...",
  "",
  "Arguments:",
  "  [COMMAND]...  Print help for the subcommand(s)"]

/-- Lines of text, each with its line end. -/
def unlines (lines : List String) : String :=
  String.join (lines.map (· ++ "\n"))

end PartitionSnapshot.CommandLine
