import CommentStyle.Registry

/-!
# The linter

A linter is a list of rules set up from options. It runs each rule over the comments of a file; a rule that
fails contributes one internal error in place of its findings and does not disturb the others, unless its
failure has no text to report. The diagnostics come out sorted by place, those of one place in the order of
report.
-/

namespace CommentStyle

/-- Option values by rule name, in the order of the configuration. -/
abbrev Options := List (String × Value)

namespace Options

/-- A name already there keeps its place and takes the new value. -/
def insert (name : String) (value : Value) : Options → Options
  | [] => [(name, value)]
  | (n, v) :: rest => if n = name then (n, value) :: rest else (n, v) :: insert name value rest

def ofPairs (pairs : List (String × Value)) : Options :=
  pairs.foldl (fun os p => insert p.1 p.2 os) []

end Options

/-- Why a linter cannot be set up. -/
inductive SetupFault where
  | unsupported (name : String)
  /-- The rule lacks phases, named in order. -/
  | incomplete (rule : String) (missing : List String)
  | failed (f : Failure)
deriving DecidableEq, Repr

namespace SetupFault

/-- What a fault says, or how a rule fails to say why it refuses its value. -/
def text : SetupFault → Except Failure String
  | unsupported name => .ok ("Unsupported rule: " ++ name)
  | incomplete rule missing =>
    .ok ("Can't instantiate abstract class " ++ rule ++ " with abstract method"
      ++ (if missing.length = 1 then " " else "s ") ++ ", ".intercalate missing)
  | failed f => f.text

def message (f : SetupFault) : String := f.text.toOption.getD Failure.untold

/-- The configuration is at fault, rather than the rule. -/
def isConfiguration : SetupFault → Bool
  | unsupported _ => true
  | incomplete _ _ => false
  | failed f => f.isRefusal

end SetupFault

/-- A rule can be set up only when it defines both phases. -/
def Rule.make (r : Rule) : Except SetupFault Rule :=
  if r.missing = [] then .ok r
  else .error (.incomplete r.name (r.missing.mergeSort (· ≤ ·)))

structure Linter where
  rules : List Rule := []

namespace Linter

def add (l : Linter) (r : Rule) : Linter := { l with rules := l.rules ++ [r] }

def size (l : Linter) : Nat := l.rules.length

/-- Sets up the rule registered under a name with its option value. -/
def configure (reg : Registry) (name : String) (value : Value) : Except SetupFault Rule :=
  match reg.find? name with
  | none => .error (.unsupported name)
  | some r =>
    match r.make with
    | .error f => .error f
    | .ok r =>
      match r.configure value with
      | .ok () => .ok r
      | .error f => .error (.failed f)

/-- One rule for each option that has a value, in the order of the options. -/
def rulesOf (reg : Registry) : Options → Except SetupFault (List Rule)
  | [] => .ok []
  | (_, .null) :: rest => rulesOf reg rest
  | (name, value) :: rest =>
    match configure reg name value with
    | .error f => .error f
    | .ok r =>
      match rulesOf reg rest with
      | .error f => .error f
      | .ok rs => .ok (r :: rs)

/-- Without options every registered rule is on. -/
def allOn (reg : Registry) : Options := reg.names.map fun n => (n, .bool true)

def ofOptions (reg : Registry) (options : Option Options) : Except SetupFault Linter :=
  (rulesOf reg (options.getD (allOn reg))).map Linter.mk

def removedRecord (name : String) : LogRecord :=
  .debug ("Rule " ++ Text.quoted name ++ " removed by configuration")

def configuredRecord (name shown : String) : LogRecord :=
  .debug ("Configured rule " ++ Text.quoted name ++ " with " ++ shown)

/-- The log of setting up the rules, which ends where the setup fails or a value cannot be shown. -/
def rulesLog (reg : Registry) : Options → List LogRecord
  | [] => []
  | (name, .null) :: rest => removedRecord name :: rulesLog reg rest
  | (name, value) :: rest =>
    match configure reg name value with
    | .error _ => []
    | .ok _ =>
      match value.shown with
      | .error _ => []
      | .ok shown => configuredRecord name shown :: rulesLog reg rest

/-- The first value that the log has no text for, if the setup gets to it. -/
def unshown? (reg : Registry) : Options → Option ShowFault
  | [] => none
  | (_, .null) :: rest => unshown? reg rest
  | (name, value) :: rest =>
    match configure reg name value with
    | .error _ => none
    | .ok _ =>
      match value.shown with
      | .error f => some f
      | .ok _ => unshown? reg rest

def setupLog (reg : Registry) (options : Option Options) : List LogRecord :=
  rulesLog reg (options.getD (allOn reg))

/-- The option names of the rules, in the order of the run. -/
def names (l : Linter) : Except MissingAttribute (List String) := l.rules.mapM Rule.requiredName

/-! ## Linting -/

/-- The code of a diagnostic about a rule that failed. -/
def internalErrorCode : String := "CMT999"

/-- What a failed rule contributes, the text of its failure being given. -/
def internalError (rule text : String) : Diagnostic where
  severity := .error
  code := internalErrorCode
  message := "Internal linter error in rule " ++ Text.quoted rule ++ ": " ++ text
  location := .unknown
  rule := rule

/-- What one rule with its stamp contributes. -/
def stamped (stamp : Stamp) : List Finding × Option Failure → Except Failure (List Diagnostic)
  | (findings, none) => .ok (findings.foldl Collector.add { stamp }).diagnostics
  | (_, some f) => f.text.map fun text => [internalError stamp.rule text]

/-- What one rule contributes. -/
def contribution (cs : List Comment) (r : Rule) : Except Breach (List Diagnostic) :=
  match r.stamp with
  | .error m => .error (.lacking m)
  | .ok stamp => (stamped stamp (r.check cs)).mapError .failed

/-- The contributions of some rules, in the order of the run. -/
def gather (cs : List Comment) : List Rule → Except Breach (List Diagnostic)
  | [] => .ok []
  | r :: rs =>
    match contribution cs r with
    | .error b => .error b
    | .ok ds =>
      match gather cs rs with
      | .error b => .error b
      | .ok es => .ok (ds ++ es)

/-- By place; diagnostics of one place keep their order. -/
def sorted (ds : List Diagnostic) : List Diagnostic :=
  ds.mergeSort fun a b => a.location.precedes b.location

/-- All diagnostics of one file's comments. -/
def lint (l : Linter) (cs : List Comment) : Except Breach (List Diagnostic) :=
  (gather cs l.rules).map sorted

def failedRecord (rule : String) (f : Failure) : LogRecord :=
  { level := .error, message := "Rule " ++ Text.quoted rule ++ " failed", failure := some f.kind }

/-- The records of rules that failed, up to the rule where the run breaks off. -/
def failuresLog (cs : List Comment) : List Rule → List LogRecord
  | [] => []
  | r :: rs =>
    match r.stamp, (r.check cs).2 with
    | .error _, _ => []
    | .ok _, none => failuresLog cs rs
    | .ok stamp, some f =>
      failedRecord stamp.rule f ::
        match f.text with
        | .ok _ => failuresLog cs rs
        | .error _ => []

/-- The log of linting one file. -/
def lintLog (l : Linter) (cs : List Comment) : List LogRecord :=
  failuresLog cs l.rules ++
    match l.lint cs with
    | .error _ => []
    | .ok ds => [.debug ("Linted " ++ toString cs.length ++ " comment(s): " ++ toString ds.length
        ++ " finding(s)")]

end Linter

/-- Why linting with options fails. -/
inductive LintFault where
  | setup (f : SetupFault)
  | run (b : Breach)
deriving DecidableEq, Repr

/-- Lints one file's comments with the built-in rules. -/
def lint (cs : List Comment) (options : Option Options := none) : Except LintFault (List Diagnostic) :=
  match Linter.ofOptions .builtin options with
  | .error f => .error (.setup f)
  | .ok l =>
    match l.lint cs with
    | .error b => .error (.run b)
    | .ok ds => .ok ds

end CommentStyle
