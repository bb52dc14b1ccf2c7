import JavaAnalysis.Config

/-!
# Arguments of the command line

The first argument names a command. Options may stand before, between and behind the paths that
follow, up to two hyphens, behind which every argument is a path.
-/

set_option autoImplicit false

namespace JavaAnalysis.Command

/-- What a command is to look at, and how. -/
structure Inputs where
  paths : List String
  config : Option String
  level : Option LanguageLevel
  mode : Option Mode
deriving DecidableEq, Repr, Inhabited

/-- The commands that work on files; each has a flag of its own. -/
inductive Task where
  | check
  | dump
deriving DecidableEq, Repr, Inhabited

namespace Task

def name : Task → String
  | check => "check"
  | dump => "dump"

def ofName? : String → Option Task
  | "check" => some check
  | "dump" => some dump
  | _ => none

/-- The flag that makes the messages short, or lists the symbols. -/
def flag : Task → String
  | check => "short"
  | dump => "symbols"

end Task

inductive Request where
  | run (task : Task) (inputs : Inputs) (flag : Bool)
  | help (task : Option Task)
  | version
deriving DecidableEq, Repr, Inhabited

/-- What is wrong with the arguments. -/
inductive UsageError where
  | noCommand
  | unknownCommand (name : String)
  | unexpected (argument : String)
  | missingValue (option : String)
  | unneededValue (option value : String)
  | repeated (option : String)
  | invalidValue (option value reason : String)
  | noPaths
deriving DecidableEq, Repr, Inhabited

/-- How an option is shown: a flag by its name, any other with the word for its value. -/
def shown (option : String) : String :=
  if option = "short" ∨ option = "symbols" ∨ option = "help" then s!"--{option}"
  else s!"--{option} <{option.toUpper}>"

def UsageError.message : UsageError → String
  | noCommand => "no command was given"
  | unknownCommand name => s!"unrecognized subcommand '{name}'"
  | unexpected argument => s!"unexpected argument '{argument}' found"
  | missingValue option => s!"a value is required for '{shown option}' but none was supplied"
  | unneededValue option value =>
    s!"unexpected value '{value}' for '{shown option}' found; no more were expected"
  | repeated option => s!"the argument '{shown option}' cannot be used multiple times"
  | invalidValue option value reason => s!"invalid value '{value}' for '{shown option}': {reason}"
  | noPaths => "the following required arguments were not provided: <PATHS>..."

/-- What the arguments of a task said so far. -/
structure Draft where
  inputs : Inputs
  flag : Bool

namespace Draft

def empty : Draft := ⟨⟨[], none, none, none⟩, false⟩

def addPaths (d : Draft) (paths : List String) : Draft :=
  { d with inputs.paths := d.inputs.paths ++ paths }

/-- Enters the value of an option. -/
def setOption (d : Draft) (option value : String) : Except UsageError Draft :=
  match option with
  | "config" =>
    if d.inputs.config.isSome then .error (.repeated option)
    else .ok { d with inputs.config := some value }
  | "level" =>
    if d.inputs.level.isSome then .error (.repeated option)
    else
      match LanguageLevel.ofString? value with
      | some level => .ok { d with inputs.level := some level }
      | none => .error (.invalidValue option value (LanguageLevel.invalidMessage value))
  | "mode" =>
    if d.inputs.mode.isSome then .error (.repeated option)
    else
      match Mode.ofName? value with
      | some mode => .ok { d with inputs.mode := some mode }
      | none => .error (.invalidValue option value (Mode.invalidMessage value))
  | _ => .error (.unexpected s!"--{option}")

def setFlag (d : Draft) (option : String) : Except UsageError Draft :=
  if d.flag then .error (.repeated option) else .ok { d with flag := true }

/-- The request that the arguments make if no others follow. -/
def finish (d : Draft) (task : Task) : Except UsageError Request :=
  if d.inputs.paths.isEmpty then .error .noPaths else .ok (.run task d.inputs d.flag)

end Draft

/-- The options that take a value. -/
def valueOptions : List String := ["config", "level", "mode"]

/-- An argument that may be a value or a path: it starts with no hyphen, or is one. -/
def isPlain (argument : String) : Bool := !argument.startsWith "-" || argument == "-"

/-- What an argument is by itself. -/
inductive Argument where
  /-- All arguments that follow are paths. -/
  | endOfOptions
  /-- A name behind two hyphens, and what stands behind an equals sign. -/
  | option (name : String) (value : Option String)
  /-- The letters behind one hyphen. -/
  | letters (cs : List Char)
  | path
deriving DecidableEq, Repr, Inhabited

def Argument.ofString (s : String) : Argument :=
  match s.toList with
  | ['-', '-'] => endOfOptions
  | '-' :: '-' :: cs =>
    let name := String.ofList (cs.takeWhile (· != '='))
    match cs.dropWhile (· != '=') with
    | [] => option name none
    | _ :: value => option name (some (String.ofList value))
  | '-' :: c :: cs => letters (c :: cs)
  | _ => path

/-- What the arguments of a task ask for; an option may be waiting for its value. -/
def parseTask (task : Task) : Option String → Draft → List String → Except UsageError Request
  | none, d, [] => d.finish task
  | some option, _, [] => .error (.missingValue option)
  | some option, d, value :: rest => do
    if isPlain value then parseTask task none (← d.setOption option value) rest
    else .error (.missingValue option)
  | none, d, argument :: rest =>
    match Argument.ofString argument with
    | .endOfOptions => (d.addPaths rest).finish task
    | .path => parseTask task none (d.addPaths [argument]) rest
    | .letters ('h' :: _) => .ok (.help task)
    | .letters _ => .error (.unexpected argument)
    | .option "help" none => .ok (.help task)
    | .option "help" (some value) => .error (.unneededValue "help" value)
    | .option name (some value) => do
      if name = task.flag then .error (.unneededValue name value)
      else parseTask task none (← d.setOption name value) rest
    | .option name none => do
      if name = task.flag then parseTask task none (← d.setFlag name) rest
      else if valueOptions.contains name then parseTask task (some name) d rest
      else .error (.unexpected argument)

/-- What the arguments ask for. -/
def parse : List String → Except UsageError Request
  | [] => .error .noCommand
  | "help" :: [] => .ok (.help none)
  | "help" :: "help" :: [] => .ok (.help none)
  | "help" :: name :: _ =>
    match Task.ofName? name with
    | some task => .ok (.help task)
    | none => .error (.unknownCommand name)
  | argument :: rest =>
    match Argument.ofString argument with
    | .option "help" none => .ok (.help none)
    | .option "version" none => .ok .version
    | .letters ('h' :: _) => .ok (.help none)
    | .letters ('V' :: _) => .ok .version
    | .path =>
      match Task.ofName? argument with
      | some task => parseTask task none .empty rest
      | none => .error (.unknownCommand argument)
    | _ => .error (.unexpected argument)

/-! ## Help -/

def programName : String := "javelin"

/-- The name of the program and its version. -/
def versionLine : String := programName ++ " 0.1.0"

/-- What a task does. -/
def Task.summary : Task → String
  | .check => "Report warnings, semantic errors and files that could not be converted"
  | .dump => "Print the syntax tree of every file"

/-- What the flag of a task does. -/
def Task.flagHelp : Task → String
  | .check => "      --short            One line per message instead of source snippets"
  | .dump => "      --symbols          Also list declarations and their usages"

def taskHelp (task : Task) : List String := [
  task.summary, "", s!"Usage: {programName} {task.name} [OPTIONS] <PATHS>...", "",
  "Arguments:",
  "  <PATHS>...  Java files, or directories to search for them", "",
  "Options:",
  "      --config <CONFIG>  Configuration file; `javelin.toml` in the working directory is " ++
    "used if present",
  "      --level <LEVEL>    Overrides `language_level`",
  "      --mode <MODE>      Overrides `mode`",
  task.flagHelp,
  "  -h, --help             Print help"]

def generalHelp : List String := [
  "Lossless Java syntax trees with symbols and front-end warnings", "",
  s!"Usage: {programName} <COMMAND>", "",
  "Commands:",
  "  check  " ++ Task.check.summary,
  "  dump   " ++ Task.dump.summary,
  "  help   Print this message or the help of the given subcommand(s)", "",
  "Options:",
  "  -h, --help     Print help",
  "  -V, --version  Print version"]

/-- The help on a task, or on the program. -/
def help : Option Task → List String
  | some task => taskHelp task
  | none => generalHelp

/-- What is printed of arguments that cannot be understood. -/
def usageLines : UsageError → List String
  | .noCommand => generalHelp
  | error => [s!"error: {error.message}", "", "For more information, try '--help'."]

end JavaAnalysis.Command
