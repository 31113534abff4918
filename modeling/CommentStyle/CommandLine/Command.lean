import CommentStyle.CommandLine.Arguments
import CommentStyle.Files.Tree

/-!
# Commands

The program takes options of its own and then a command with the arguments of that command. Help, and the
program's version, are given as soon as they are asked for, before anything else is judged.
-/

namespace CommentStyle.CommandLine

inductive Format where
  | table
  | json
deriving DecidableEq, Repr

/-- The letter that a letter is compared as where case does not matter; the long s is an s. -/
def foldCase (c : Char) : Char := if c = '\u017f' then 's' else c.toLower

def Format.ofWord? (w : String) : Option Format :=
  let w := w.map foldCase
  if w = "table" then some .table else if w = "json" then some .json else none

/-- What `lint` is asked to do. -/
structure LintCall where
  files : List String
  config : Option String := none
  format : Format := .table
  verbose : Bool := false
deriving DecidableEq, Repr

inductive Command where
  | lint
  | rules
  | version
deriving DecidableEq, Repr

/-- A command with its arguments read. -/
inductive Call where
  | lint (call : LintCall)
  | rules
  | version
deriving DecidableEq, Repr

/-- Why no command is run. -/
inductive Stop where
  | help
  | version
  | fault (f : UsageFault)
  /-- A path holds the null character. -/
  | nullPath
deriving DecidableEq, Repr

def helpOption : OptionSpec := { long := "--help" }

def versionOption : OptionSpec := { long := "--version" }

def verboseOption : OptionSpec := { long := "--verbose", short := some 'v' }

def configOption : OptionSpec := { long := "--config", short := some 'c', takesValue := true }

def formatOption : OptionSpec := { long := "--format", takesValue := true }

/-- The options of the program itself. -/
def programOptions : List OptionSpec := [versionOption, verboseOption, helpOption]

/-- Help or version, whichever is asked for first. -/
def informationAsked (a : Arguments) : Option Stop :=
  a.options.findSome? fun g =>
    if g.option = helpOption.long then some .help
    else if g.option = versionOption.long then some .version
    else none

namespace Command

def name : Command → String
  | lint => "lint"
  | rules => "rules"
  | version => "version"

/-- All commands in the order of their names. -/
def all : List Command := [lint, rules, version]

def ofName? (name : String) : Option Command := all.find? (·.name = name)

def options : Command → List OptionSpec
  | lint => [configOption, formatOption, verboseOption, helpOption]
  | rules | version => [helpOption]

def formatOf (a : Arguments) : Except UsageFault Format :=
  match a.value? formatOption.long with
  | none => .ok .table
  | some w =>
    match Format.ofWord? w with
    | some f => .ok f
    | none => .error (.badChoice formatOption.long w ["table", "json"])

/-- Judges the value of an option that was given, which is its last. -/
def judge (a : Arguments) (g : Given) : Except Stop Unit :=
  if g.option = formatOption.long then
    match formatOf a with
    | .ok _ => .ok ()
    | .error f => .error (.fault f)
  else if g.option = configOption.long && ((a.value? configOption.long).map hasNull).getD false then
    .error .nullPath
  else .ok ()

/-- What `lint` is asked to do. The options are judged in the order they were given, then the files. -/
def lintCallOf (a : Arguments) : Except Stop LintCall := do
  a.options.forM (judge a)
  let format ← (formatOf a).mapError .fault
  if a.words = [] then throw (.fault .missingFiles)
  if a.words.any hasNull then throw .nullPath
  return { files := a.words, config := a.value? configOption.long, format
           verbose := a.gives verboseOption.long }

def callOf (c : Command) (a : Arguments) : Except Stop Call :=
  match c with
  | lint => (lintCallOf a).map .lint
  | rules => if a.words = [] then .ok .rules else .error (.fault (.extraArguments a.words))
  | version => if a.words = [] then .ok .version else .error (.fault (.extraArguments a.words))

/-- Reads the arguments of a command. -/
def parse (c : Command) (args : List String) : Except Stop Call :=
  match Arguments.read c.options true none args with
  | .error f => .error (.fault f)
  | .ok a =>
    match informationAsked a with
    | some stop => .error stop
    | none => c.callOf a

/-! ## Help -/

def usage : Command → String
  | lint => "Usage: commentlint lint [OPTIONS] FILES...\n"
  | rules => "Usage: commentlint rules [OPTIONS]\n"
  | version => "Usage: commentlint version [OPTIONS]\n"

def help (c : Command) : String :=
  c.usage ++ match c with
  | lint =>
    "\n  Lint comment dumps.\n"
      ++ "\n  FILES are JSON or YAML comment dumps, one per source file.\n"
      ++ "\nOptions:\n"
      ++ "  -c, --config PATH      Config file (defaults to the nearest .commentlintrc)\n"
      ++ "  --format [table|json]  Output format\n"
      ++ "  -v, --verbose          Log debug output to stderr\n"
      ++ "  --help                 Show this message and exit.\n"
  | rules =>
    "\n  List the registered rules, including installed plugins.\n"
      ++ "\nOptions:\n  --help  Show this message and exit.\n"
  | version =>
    "\n  Show detailed version information.\n"
      ++ "\nOptions:\n  --help  Show this message and exit.\n"

end Command

def programUsage : String := "Usage: commentlint [OPTIONS] COMMAND [ARGS]...\n"

def programHelp : String :=
  programUsage
    ++ "\n  Comment style linter with textblock-aware capitalization.\n"
    ++ "\nOptions:\n"
    ++ "  --version      Show the version and exit.\n"
    ++ "  -v, --verbose  Log debug output to stderr\n"
    ++ "  --help         Show this message and exit.\n"
    ++ "\nCommands:\n"
    ++ "  lint     Lint comment dumps.\n"
    ++ "  rules    List the registered rules, including installed plugins.\n"
    ++ "  version  Show detailed version information.\n"

/-- How a usage fault is reported for the program or one of its commands. -/
def faultText (command : Option Command) (f : UsageFault) : String :=
  let usage := match command with
    | some c => c.usage ++ "Try 'commentlint " ++ c.name ++ " --help' for help.\n\n"
    | none => programUsage ++ "Try 'commentlint --help' for help.\n\n"
  (if f.showsUsage then usage else "") ++ "Error: " ++ f.message ++ "\n"

/-! ## The command asked for -/

/-- The program's own options read: whether to be verbose, and the command with its arguments. -/
structure Request where
  verbose : Bool
  command : Command
  args : List String
deriving DecidableEq, Repr

/-- The program's own options; they end at the first word. -/
def readProgram (args : List String) : Except Stop Arguments :=
  match Arguments.read programOptions false none args with
  | .error f => .error (.fault f)
  | .ok a =>
    match informationAsked a with
    | some stop => .error stop
    | none => .ok a

/-- A word that names no command. One that looks like an option is judged as one first. -/
def unknownCommand (word : String) (rest : List String) : Stop :=
  let fault := Stop.fault (.unknownCommand word (Text.suggestions word (Command.all.map Command.name)))
  match readProgram (word :: rest) with
  | .error stop => stop
  | .ok _ => fault

/-- The command that arguments ask for. -/
def request (args : List String) : Except Stop Request :=
  match readProgram args with
  | .error stop => .error stop
  | .ok a =>
    match a.words with
    | [] => .error (.fault .missingCommand)
    | word :: rest =>
      match Command.ofName? word with
      | some command => .ok { verbose := a.gives verboseOption.long, command, args := rest }
      | none => .error (unknownCommand word rest)

end CommentStyle.CommandLine
