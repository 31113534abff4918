import CommentStyle.Comment

/-!
# Findings, diagnostics and the log

A rule reports findings: a message and a place. Stamped with the rule's option name, code and severity, a
finding becomes a diagnostic, which is what a lint run returns. Beside its answer a run keeps a log; a record
about a failure names the failure's kind.
-/

namespace CommentStyle

structure Finding where
  message : String
  location : Position
deriving DecidableEq, Repr

inductive Severity where
  | error
  | warning
  | information
  | hint
deriving DecidableEq, Repr

def Severity.name : Severity → String
  | error => "ERROR"
  | warning => "WARNING"
  | information => "INFORMATION"
  | hint => "HINT"

structure Diagnostic where
  severity : Severity
  code : String
  message : String
  location : Position
  rule : String := ""
deriving DecidableEq, Repr

namespace Diagnostic

def text (d : Diagnostic) : String :=
  "[" ++ d.code ++ "] " ++ d.severity.name ++ " at " ++ d.location.text ++ ": " ++ d.message

/-- Only an error fails a lint run by itself. -/
def isError (d : Diagnostic) : Bool := d.severity = .error

end Diagnostic

/-- What a rule puts on each of its findings. -/
structure Stamp where
  rule : String
  code : String
  severity : Severity := .error
deriving DecidableEq, Repr

def Stamp.diagnostic (s : Stamp) (f : Finding) : Diagnostic :=
  { severity := s.severity, code := s.code, message := f.message, location := f.location, rule := s.rule }

/-- Diagnostics gathered for one rule, in the order of report. -/
structure Collector where
  stamp : Stamp
  diagnostics : List Diagnostic := []

namespace Collector

def add (c : Collector) (f : Finding) : Collector :=
  { c with diagnostics := c.diagnostics ++ [c.stamp.diagnostic f] }

def size (c : Collector) : Nat := c.diagnostics.length

theorem diagnostics_foldl_add (c : Collector) (fs : List Finding) :
    (fs.foldl add c).diagnostics = c.diagnostics ++ fs.map c.stamp.diagnostic := by
  induction fs generalizing c with
  | nil => simp
  | cons f fs ih => simp [ih, add]

end Collector

/-! ## The log -/

inductive LogLevel where
  | debug
  | warning
  | error
deriving DecidableEq, Repr

def LogLevel.name : LogLevel → String
  | debug => "DEBUG"
  | warning => "WARNING"
  | error => "ERROR"

structure LogRecord where
  level : LogLevel
  message : String
  failure : Option String := none
deriving DecidableEq, Repr

namespace LogRecord

def debug (message : String) : LogRecord := ⟨.debug, message, none⟩

def warning (message : String) : LogRecord := ⟨.warning, message, none⟩

/-- Kept in the log of a run that was not asked to be verbose. -/
def isNotable (r : LogRecord) : Bool := r.level ≠ .debug

end LogRecord

end CommentStyle
