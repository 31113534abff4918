import CommentStyle.CommandLine.Lint

/-!
# Running the program

The arguments choose a command, and the command gives an outcome. Faults in the arguments end a run with
status 2 before any command is run. The log holds what is notable, and everything once a run is verbose.
-/

namespace CommentStyle.CommandLine

def programVersion : String := "0.1.0"

/-- What the program runs on, as the version command prints it. -/
structure Host where
  interpreter : String
  platform : String

def runVersion (host : Host) : Outcome where
  out := " commentlint  v" ++ programVersion ++ " \n Python       " ++ host.interpreter
    ++ "\n Platform     " ++ host.platform ++ "\n"

/-! ## The rules command -/

/-- The cells of a rule under its name. -/
def ruleCells (entry : String × Rule) : Except MissingAttribute (List String) :=
  match entry.2.code with
  | some code => .ok [entry.1, code, entry.2.description]
  | none => .error { rule := entry.2.name, lacking := "code", ofRule := true }

/-- The registered rules in the order of their names. -/
def rulesByName (reg : Registry) : List (String × Rule) :=
  reg.names.filterMap fun name => (reg.find? name).map fun rule => (name, rule)

def rulesTable (rows : List (List String)) : Console.Table where
  title := "Rules"
  columns := [{ name := "Option", breaks := false }, { name := "Code" }, { name := "Description" }]
  rows := rows

def rulesText (reg : Registry) : Except Escape String :=
  match (rulesByName reg).mapM ruleCells with
  | .error m => .error (.breach (.lacking m))
  | .ok rows => (rulesTable rows).print.mapError .markup

def runRules (env : Environment) : Outcome :=
  let loading := Registry.builtin.load ruleGroup env.entryPoints
  match loading.fault with
  | some b => { exit := 1, log := loading.log, escaped := some (.breach b) }
  | none =>
    match rulesText loading.registry with
    | .ok text => { out := text, log := loading.log }
    | .error e => { exit := 1, log := loading.log, escaped := some e }

/-! ## The program -/

/-- The outcome of a run, and whether it was verbose. -/
structure Run where
  verbose : Bool
  outcome : Outcome

/-- What is printed where no command is run, for the program or for one of its commands. -/
def stopped (command : Option Command) : Stop → Outcome
  | .help => { out := match command with
      | some c => c.help
      | none => programHelp }
  | .version => { out := "commentlint, version " ++ programVersion ++ "\n" }
  | .fault f => { exit := 2, err := faultText command f }
  | .nullPath => { exit := 1, escaped := some .nullPath }

def runCall (env : Environment) (host : Host) : Call → Outcome
  | .lint call => runLint env call
  | .rules => runRules env
  | .version => runVersion host

namespace Call

/-- The call as part of a run that is verbose or not; a linting may also be verbose by itself. -/
def within (verbose : Bool) : Call → Call
  | lint call => lint { call with verbose := verbose || call.verbose }
  | c => c

def verbose : Call → Bool
  | lint call => call.verbose
  | rules | version => false

end Call

/-- Keeps what is notable, or everything in a verbose run. -/
def logged (verbose : Bool) (o : Outcome) : Run :=
  { verbose, outcome := if verbose then o else { o with log := o.log.filter LogRecord.isNotable } }

/-- Runs the program. Without any arguments it explains itself. -/
def run (env : Environment) (host : Host) (args : List String) : Run :=
  if args = [] then { verbose := false, outcome := { exit := 2, err := programHelp } }
  else
    match request args with
    | .error stop => { verbose := false, outcome := stopped none stop }
    | .ok r =>
      match r.command.parse r.args with
      | .error stop => { verbose := r.verbose, outcome := stopped (some r.command) stop }
      | .ok call =>
        let call := call.within r.verbose
        logged (r.verbose || call.verbose) (runCall env host call)

/-! ## What a run reads -/

def pathPlaces (directory : Path.Place) (text : String) : List Path.Place :=
  let path := Path.ofString text
  Path.passed (path.origin directory) path.parts

/-- The places that a run may look at, so that they can be read before it. -/
def places (directory : Path.Place) (args : List String) : List Path.Place :=
  match (request args).toOption.bind fun r => (r.command.parse r.args).toOption with
  | some (.lint call) =>
    Config.candidates directory ++ (call.config.toList ++ call.files).flatMap (pathPlaces directory)
  | _ => []

end CommentStyle.CommandLine
