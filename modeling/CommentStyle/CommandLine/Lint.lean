import CommentStyle.CommandLine.Command
import CommentStyle.Config
import CommentStyle.Console.Table
import CommentStyle.Dump.Text
import CommentStyle.Json.Writer

/-!
# The lint command

The configuration is settled first; when it is at fault nothing is linted. Then each file is loaded and
linted by itself, and one that cannot be loaded does not keep the others from being linted. The report is a
table for each file, printed as the files are reached, or one JSON text at the end.
-/

namespace CommentStyle.CommandLine

open CommentStyle.Path (Place)

/-- What a run has beside its arguments. -/
structure Environment where
  files : Files := {}
  entryPoints : List EntryPoint := []
  /-- What the parser says of a text that is no YAML. -/
  explain : String → String := fun _ => ""

/-- A fault that no command handles: it ends the run where it arises. -/
inductive Escape where
  | breach (b : Breach)
  | setup (f : SetupFault)
  | config (f : Config.Fault)
  | load (f : LoadFault)
  | markup (f : Console.MarkupFault)
  /-- A whole number cannot be written. -/
  | number (f : NumberFault)
  /-- An option value has no text for the log. -/
  | unshown (f : ShowFault)
  | nullPath
deriving DecidableEq, Repr

def Escape.message (explain : String → String) : Escape → String
  | breach b => b.message
  | setup f => f.message
  | config f => f.message explain
  | load f => f.message explain
  | markup f => f.message
  | number f => f.message
  | unshown f => f.message
  | nullPath => nullMessage

/-- What a run printed and noted, its exit status, and the fault that ended it, if one did. -/
structure Outcome where
  exit : Nat := 0
  out : String := ""
  err : String := ""
  log : List LogRecord := []
  escaped : Option Escape := none
deriving Repr

/-! ## The configuration -/

/-- Why no linter can be set up. -/
inductive SettingFault where
  | config (f : Config.Fault)
  | setup (f : SetupFault)
deriving DecidableEq, Repr

namespace SettingFault

def isConfiguration : SettingFault → Bool
  | config f => f.isConfiguration
  | setup f => f.isConfiguration

/-- What a fault says, or how a rule fails to say it. -/
def text (explain : String → String) : SettingFault → Except Failure String
  | config f => .ok (f.message explain)
  | setup f => f.text

def escape : SettingFault → Escape
  | config f => .config f
  | setup f => .setup f

end SettingFault

/-- The nearest configuration file. -/
def nearestConfig (fs : Files) : Except Config.Fault (Option Path) :=
  (Config.search fs none).map (·.map Path.ofPlace)

/-- The configuration file: the one asked for, unless that is an empty name, or else the nearest one. -/
def configPath (fs : Files) (asked : Option String) : Except Config.Fault (Option Path) :=
  match asked with
  | some path => if path = "" then nearestConfig fs else .ok (some (Path.ofString path))
  | none => nearestConfig fs

/-- The log of choosing the configuration file. -/
def configLog (fs : Files) (asked : Option String) : List LogRecord :=
  match asked with
  | some path => if path = "" then Config.searchLog fs none else []
  | none => Config.searchLog fs none

/-- The options of the configuration file, if there is one. -/
def configOptions (fs : Files) (asked : Option String) : Except Config.Fault (Option Options) :=
  match configPath fs asked with
  | .error f => .error f
  | .ok none => .ok none
  | .ok (some path) => (Config.load fs path).map some

/-- The linter of a run. -/
def linter (fs : Files) (reg : Registry) (asked : Option String) : Except SettingFault Linter :=
  match configOptions fs asked with
  | .error f => .error (.config f)
  | .ok options => (Linter.ofOptions reg options).mapError .setup

def linterLog (fs : Files) (reg : Registry) (asked : Option String) : List LogRecord :=
  configLog fs asked ++
    match configOptions fs asked with
    | .error _ => []
    | .ok options => Linter.setupLog reg options

/-- The first option value that the log of setting up the linter has no text for. -/
def unshownOption (fs : Files) (reg : Registry) (asked : Option String) : Option ShowFault :=
  match configOptions fs asked with
  | .error _ => none
  | .ok options => Linter.unshown? reg (options.getD (Linter.allOn reg))

/-! ## One file -/

def severityStyle : Severity → String
  | .error => "red"
  | .warning => "yellow"
  | .information => "blue"
  | .hint => "dim"

/-- The cells of a diagnostic in a table. -/
def cellsOf (d : Diagnostic) : List String :=
  let style := severityStyle d.severity
  ["[" ++ style ++ "]" ++ d.severity.name ++ "[/" ++ style ++ "]", d.code, d.location.text, d.message]

def diagnosticTable (path : String) (ds : List Diagnostic) : Console.Table where
  title := "Lint: " ++ path
  columns := [{ name := "Severity", minWidth := 10 }, { name := "Code", minWidth := 8 },
    { name := "Location", minWidth := 10 }, { name := "Message" }]
  rows := ds.map cellsOf
  divided := true

/-- What is printed of a linted file where tables are asked for. -/
def fileText (path : String) (ds : List Diagnostic) : Except Console.MarkupFault String :=
  if ds.isEmpty then Console.print ("[green]OK[/green] " ++ path ++ " — no lint issues found")
  else (diagnosticTable path ds).print

/-- What is printed of a file that cannot be loaded; nothing if the fault is not one of a dump. -/
def unloadedMarkup (explain : String → String) (path : String) : LoadFault → Option String
  | .text (.file .missing _) => some ("[red]Error:[/red] File not found: " ++ path)
  | .text (.file f p) => some ("[red]Error:[/red] Cannot read " ++ path ++ ": " ++ f.message p)
  | .read (.dump f) => some ("[red]Format error[/red] in " ++ path ++ ": " ++ f.message explain)
  | .text .nullName | .text (.encoding _) | .read (.json _) | .read (.yaml _) | .read (.unshown _) => none

/-- The places of the diagnostics can be written. -/
def writable (ds : List Diagnostic) : Bool := ds.all fun d => d.location.isWritable

/-- The data of a diagnostic in a report. -/
def diagnosticData (d : Diagnostic) : Value :=
  .map [(.str "severity", .str d.severity.name), (.str "code", .str d.code),
    (.str "message", .str d.message), (.str "line", d.location.line.toValue),
    (.str "column", d.location.column.toValue), (.str "rule", .str d.rule)]

/-! ## All files -/

/-- What was found in the files so far. -/
structure Progress where
  out : String := ""
  err : String := ""
  log : List LogRecord := []
  failed : Bool := false
  total : Nat := 0
  /-- The diagnostics of each linted file, a file linted again at its first place. -/
  report : List (String × List Diagnostic) := []

namespace Progress

def insertReport (path : String) (ds : List Diagnostic) :
    List (String × List Diagnostic) → List (String × List Diagnostic)
  | [] => [(path, ds)]
  | (p, es) :: rest => if p = path then (p, ds) :: rest else (p, es) :: insertReport path ds rest

/-- A file that could not be loaded. -/
def fail (p : Progress) (err : String) : Progress := { p with err := p.err ++ err, failed := true }

/-- A file that was linted. -/
def count (p : Progress) (path : String) (ds : List Diagnostic) : Progress :=
  { p with total := p.total + ds.length, report := insertReport path ds p.report }

end Progress

/-- A stage of the run, or the fault that ended it with what had been done by then. -/
abbrev Stage := Except (Escape × Progress) Progress

section Run

variable (env : Environment)

/-- One file. -/
def lintFile (l : Linter) (format : Format) (p : Progress) (path : String) : Stage :=
  match Dump.load env.files (Path.ofString path) with
  | .error f =>
    match unloadedMarkup env.explain path f with
    | none => .error (.load f, p)
    | some markup =>
      match Console.print markup with
      | .error f => .error (.markup f, p)
      | .ok text => .ok (p.fail text)
  | .ok cs =>
    let p := { p with log := p.log ++ l.lintLog cs }
    match l.lint cs with
    | .error b => .error (.breach b, p)
    | .ok ds =>
      match format with
      | .json => .ok (p.count path ds)
      | .table =>
        if writable ds then
          match fileText path ds with
          | .error f => .error (.markup f, p)
          | .ok text => .ok { p.count path ds with out := p.out ++ text }
        else .error (.number .tooLong, p)

/-- The files in order. -/
def lintFiles (l : Linter) (format : Format) (p : Progress) : List String → Stage
  | [] => .ok p
  | path :: rest =>
    match lintFile env l format p path with
    | .error e => .error e
    | .ok p => lintFiles l format p rest

def reportData (report : List (String × List Diagnostic)) : Value :=
  .map (report.map fun e => (.str e.1, .list (e.2.map diagnosticData)))

/-- What is printed at the end. -/
def closing (format : Format) (p : Progress) : String :=
  match format with
  | .json => Json.render (.lines 2) (reportData p.report) ++ "\n"
  | .table => "\n" ++ toString p.total ++ " lint finding(s)\n"

/-- The exit status once the files were gone through. -/
def status (p : Progress) : Nat := if p.failed ∨ 0 < p.total then 1 else 0

/-- A run that a fault has ended. -/
def broken (e : Escape) (p : Progress) : Outcome :=
  { exit := 1, out := p.out, err := p.err, log := p.log, escaped := some e }

def finish (format : Format) : Stage → Outcome
  | .error (e, p) => broken e p
  | .ok p =>
    if p.report.all fun e => writable e.2 then
      { exit := status p, out := p.out ++ closing format p, err := p.err, log := p.log }
    else broken (.number .tooLong) p

/-- What is printed, and with which status the run ends, when no linter can be set up. -/
def unsettled (f : SettingFault) (log : List LogRecord) : Outcome :=
  if f.isConfiguration then
    match f.text env.explain with
    | .error raised => { exit := 1, log, escaped := some (.breach (.failed raised)) }
    | .ok text =>
      match Console.print ("[red]Configuration error:[/red] " ++ text) with
      | .ok text => { exit := 2, err := text, log }
      | .error m => { exit := 1, log, escaped := some (.markup m) }
  else { exit := 1, log, escaped := some f.escape }

/-- Lints files with the rules of a registry, the linter being set up with a log. -/
def lintLogged (reg : Registry) (call : LintCall) (log : List LogRecord) : Outcome :=
  match linter env.files reg call.config with
  | .error f => unsettled env f log
  | .ok l => finish call.format (lintFiles env l call.format { log } call.files)

/-- Lints files with the rules of a registry. Only a verbose run notes how the linter is set up, and it
ends where that cannot be put into words. -/
def lintWith (reg : Registry) (call : LintCall) : Outcome :=
  if call.verbose then
    let log := linterLog env.files reg call.config
    match unshownOption env.files reg call.config with
    | some f => { exit := 1, log, escaped := some (.unshown f) }
    | none => lintLogged env reg call log
  else lintLogged env reg call []

/-- The lint command: the rules of installed packages are loaded first. -/
def runLint (call : LintCall) : Outcome :=
  let loading := Registry.builtin.load ruleGroup env.entryPoints
  match loading.fault with
  | some b => { exit := 1, log := loading.log, escaped := some (.breach b) }
  | none =>
    let outcome := lintWith env loading.registry call
    { outcome with log := loading.log ++ outcome.log }

end Run

end CommentStyle.CommandLine
