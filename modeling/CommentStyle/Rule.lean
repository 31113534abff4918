import CommentStyle.Textblock
import CommentStyle.Value

/-!
# Rules

A rule has two phases: it takes its option value once, at setup, and then looks at the comments of each
file. Both are written by whoever provides the rule, so either may fail in its own way; a rule that fails
while it looks has reported some findings before. A rule may also be incomplete, by lacking an option name,
a code or one of the two phases.
-/

namespace CommentStyle

/-- How code that others provide ends when it does not succeed. -/
inductive Failure where
  /-- The option value is not acceptable. -/
  | refusal (message : String)
  /-- Something looked for is not there. -/
  | lookup (message : String)
  | other (kind message : String)
  /-- A failure that has no text: to ask it for one fails in turn. -/
  | mute (kind : String) (raised : Failure)
deriving DecidableEq, Repr

namespace Failure

def refusalKind : String := "ConfigurationError"

/-- The kind named by a word, with its message. -/
def ofKind (kind message : String) : Failure :=
  if kind = refusalKind then refusal message
  else if kind = "KeyError" then lookup message
  else other kind message

def kind : Failure → String
  | refusal _ => refusalKind
  | lookup _ => "KeyError"
  | other kind _ | mute kind _ => kind

/-- The option value is not acceptable, whether or not that can be told. -/
def isRefusal : Failure → Bool
  | refusal _ => true
  | mute kind _ => kind = refusalKind
  | lookup _ | other _ _ => false

/-- What the failure says of itself, or how it fails to. A failed look-up shows what was looked for, in
quotes. -/
def text : Failure → Except Failure String
  | refusal message => .ok message
  | lookup message => .ok (Text.quoted message)
  | other _ message => .ok message
  | mute _ raised => .error raised

/-- What stands for the text of a failure that has none. -/
def untold : String := "<exception str() failed>"

/-- The text of a failure that ends a run. -/
def shown (f : Failure) : String := f.text.toOption.getD untold

end Failure

structure Rule where
  name : String
  /-- The module that defines the rule, as it is shown in front of the rule's name. -/
  home : String := "plugins"
  optionName : Option String := none
  code : Option String := none
  severity : Severity := .error
  description : String := ""
  /-- The phases the rule does not define. -/
  missing : List String := []
  configure : Value → Except Failure Unit
  /-- The findings reported, and the failure that ended the check, if one did. -/
  check : List Comment → List Finding × Option Failure

/-- A rule was asked for an attribute it does not define. -/
structure MissingAttribute where
  rule : String
  lacking : String
  /-- Asked of the rule itself rather than of one set up for a run. -/
  ofRule : Bool := false
deriving DecidableEq, Repr

def MissingAttribute.message (m : MissingAttribute) : String :=
  (if m.ofRule then "type object " else "") ++ "'" ++ m.rule ++ "'"
    ++ (if m.ofRule then "" else " object") ++ " has no attribute '" ++ m.lacking ++ "'"

/-- What others provide is at fault in a way that nothing makes up for. -/
inductive Breach where
  | lacking (m : MissingAttribute)
  /-- Their code fails where no failure of it is expected. -/
  | failed (f : Failure)
deriving DecidableEq, Repr

namespace Breach

def kind : Breach → String
  | lacking _ => "AttributeError"
  | failed f => f.kind

def message : Breach → String
  | lacking m => m.message
  | failed f => f.shown

/-- The fault is of the kind of those about what something is. -/
def isTypeError (b : Breach) : Bool := b.kind = "TypeError"

end Breach

namespace Rule

/-- The form in which the rule itself appears inside a message. -/
def shown (r : Rule) : String := "<class '" ++ r.home ++ "." ++ r.name ++ "'>"

def requiredName (r : Rule) : Except MissingAttribute String :=
  match r.optionName with
  | some name => .ok name
  | none => .error { rule := r.name, lacking := "option_name" }

/-- What the rule puts on its findings. -/
def stamp (r : Rule) : Except MissingAttribute Stamp := do
  let rule ← r.requiredName
  match r.code with
  | some code => return { rule, code, severity := r.severity }
  | none => throw { rule := r.name, lacking := "code" }

/-- The form in which a rule set up for a run appears inside a message. -/
def shownInstance (r : Rule) : Except MissingAttribute String := do
  let name ← r.requiredName
  return r.name ++ "(option_name=" ++ Text.quoted name ++ ")"

/-! ## The capitalisation rule -/

def capitalizedOption : String := "requireCapitalizedComments"

/-- The only value the option takes is true. -/
def requireTrue (optionName : String) : Value → Except Failure Unit
  | .bool true => .ok ()
  | _ => .error (.refusal (optionName ++ " option requires a value of true or should be removed"))

/-- Comments must start with an uppercase letter unless they continue a textblock. -/
def capitalized : Rule where
  name := "RequireCapitalizedComments"
  home := "commentlint.linter.rules.capitalized_comments"
  optionName := some capitalizedOption
  code := some "CMT001"
  description := "Require comments to start with an uppercase letter, except inside textblocks"
  configure := requireTrue capitalizedOption
  check cs := (scan cs, none)

/-! ## Rules given by a description -/

/-- A rule that refuses its option value or takes any, and whose check reports each of some messages at
every comment and then fails or ends. -/
structure Script where
  refusal : Option Failure := none
  messages : List String := []
  failure : Option Failure := none

def Script.configure (s : Script) (_ : Value) : Except Failure Unit :=
  match s.refusal with
  | some f => .error f
  | none => .ok ()

def Script.check (s : Script) (cs : List Comment) : List Finding × Option Failure :=
  (s.messages.flatMap fun m => cs.map fun c => ⟨m, c.location⟩, s.failure)

/-- A rule of its own, described by a script. -/
def scripted (name : String) (s : Script) : Rule where
  name := name
  configure := s.configure
  check := s.check

/-- A variant of the capitalisation rule under a name of its own; attributes not given are taken over. -/
def capitalizedVariant (name : String) (optionName code description : Option String)
    (severity : Option Severity) : Rule :=
  let option := optionName.getD capitalizedOption
  { capitalized with
    name, home := "plugins", optionName := some option
    code := code.or capitalized.code
    description := description.getD capitalized.description
    severity := severity.getD capitalized.severity
    configure := requireTrue option }

end Rule

end CommentStyle
