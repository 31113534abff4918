import CommentStyle.Rule

/-!
# The registry of rules

A registry maps option names to rules. Anything may be offered for registration, but only a rule under a
non-empty, free name is taken. Entry-points are the rules that installed packages declare: each is loaded
when its name is free at the moment it is reached, and one that cannot be loaded or is not a rule is noted
in the log and passed over.
-/

namespace CommentStyle

/-- What is offered for registration. -/
inductive Candidate where
  | rule (r : Rule)
  /-- A rule already set up for a run, which is no longer a rule to register. -/
  | made (r : Rule)
  /-- Anything else: how it is shown, which its own code decides, and the option name it carries, if any. -/
  | thing (shown : Except Failure String) (optionName : String)

namespace Candidate

def optionName : Candidate → String
  | rule r | made r => r.optionName.getD ""
  | thing _ name => name

def shown : Candidate → Except Breach String
  | rule r => .ok r.shown
  | made r => r.shownInstance.mapError .lacking
  | thing shown _ => shown.mapError .failed

end Candidate

structure Registry where
  name : String
  entries : List (String × Rule) := []

/-- Why a registry refuses an operation. -/
inductive RegistryFault where
  | notRule (shown name : String)
  /-- The refused candidate cannot even be shown. -/
  | unshown (b : Breach)
  /-- The refused candidate cannot be shown, and the attempt ends as the refusal would: with a type error. -/
  | mistold (b : Breach)
  | unnamed (rule : String)
  | taken (name registry : String)
  | absent (name registry : String)
deriving DecidableEq, Repr

def RegistryFault.message : RegistryFault → String
  | notRule shown name =>
    "Cannot register " ++ shown ++ " under " ++ Text.quoted name ++ ": it must be a subclass of Rule."
  | unshown b | mistold b => b.message
  | unnamed rule => "Cannot register " ++ rule ++ ": it has no option name."
  | taken name registry =>
    "Rule " ++ Text.quoted name ++ " is already registered in the " ++ Text.quoted registry
      ++ " registry. Use a unique option name or deregister the existing rule first."
  | absent name registry =>
    Text.quoted ("Rule " ++ Text.quoted name ++ " is not registered in the " ++ Text.quoted registry
      ++ " registry. Check that the package providing it is installed and its entry-points are declared.")

/-- Why a candidate that is no rule is refused under a name. -/
def Candidate.refusal (c : Candidate) (name : String) : RegistryFault :=
  match c.shown with
  | .ok shown => .notRule shown name
  | .error b => if b.isTypeError then .mistold b else .unshown b

namespace Registry

def find? (r : Registry) (name : String) : Option Rule := r.entries.lookup name

def contains (r : Registry) (name : String) : Bool := (r.find? name).isSome

def get (r : Registry) (name : String) : Except RegistryFault Rule :=
  match r.find? name with
  | some rule => .ok rule
  | none => .error (.absent name r.name)

/-- The registered option names, in the order of their code points. -/
def names (r : Registry) : List String := (r.entries.map Prod.fst).mergeSort (· ≤ ·)

def size (r : Registry) : Nat := r.entries.length

def shown (r : Registry) : String :=
  "RuleRegistry(name=" ++ Text.quoted r.name ++ ", rules=["
    ++ ", ".intercalate (r.names.map Text.quoted) ++ "])"

/-- The same rules in a registry of its own; an empty name keeps the name. -/
def copy (r : Registry) (name : Option String) : Registry :=
  { r with name := match name with
    | some n => if n = "" then r.name else n
    | none => r.name }

/-- Registers a candidate under a name. That it is a rule is judged first, then that it has a name. -/
def registerAs (r : Registry) (name : String) (c : Candidate) : Except RegistryFault Registry :=
  match c with
  | .rule rule =>
    if name = "" then .error (.unnamed rule.name)
    else if r.contains name then .error (.taken name r.name)
    else .ok { r with entries := r.entries ++ [(name, rule)] }
  | other => .error (other.refusal name)

/-- Registers a candidate under its own option name. -/
def register (r : Registry) (c : Candidate) : Except RegistryFault Registry :=
  r.registerAs c.optionName c

def deregister (r : Registry) (name : String) : Except RegistryFault Registry :=
  if r.contains name then .ok { r with entries := r.entries.filter fun e => e.1 ≠ name }
  else .error (.absent name r.name)

def registeredRecord (r : Registry) (name : String) (rule : Rule) : LogRecord :=
  .debug ("Registered rule " ++ Text.quoted name ++ " -> " ++ rule.name ++ " in registry "
    ++ Text.quoted r.name)

def deregisteredRecord (r : Registry) (name : String) : LogRecord :=
  .debug ("Deregistered rule " ++ Text.quoted name ++ " from registry " ++ Text.quoted r.name)

/-- The log of a registration. -/
def registerLog (r : Registry) (name : String) (c : Candidate) : List LogRecord :=
  match c, r.registerAs name c with
  | .rule rule, .ok _ => [r.registeredRecord name rule]
  | _, _ => []

/-- The registry every run starts from. -/
def builtin : Registry := { name := "builtin", entries := [(Rule.capitalizedOption, .capitalized)] }

end Registry

/-! ## Entry-points -/

/-- The group under which packages declare rules. -/
def ruleGroup : String := "commentlint.rules"

structure EntryPoint where
  name : String
  group : String := ruleGroup
  /-- What loading it gives. -/
  load : Except Failure Candidate

/-- A registry after entry-points were loaded, what was noted, and what broke the loading off. -/
structure Loading where
  registry : Registry
  log : List LogRecord := []
  fault : Option Breach := none

namespace Registry

def skippedRecord (r : Registry) (name : String) : LogRecord :=
  .debug ("Entry-point " ++ Text.quoted name ++ " already registered in " ++ Text.quoted r.name
    ++ "; skipping.")

def unloadedRecord (group name : String) (f : Failure) : LogRecord :=
  { level := .error
    message := "Failed to load entry-point " ++ Text.quoted name ++ " from group " ++ Text.quoted group
      ++ "; skipping."
    failure := some f.kind }

def refusedRecord (r : Registry) (name : String) : LogRecord :=
  .warning ("Entry-point " ++ Text.quoted name ++ " loaded but could not be registered in registry "
    ++ Text.quoted r.name ++ "; skipping.")

/-- One entry-point of the group. -/
def loadOne (r : Registry) (group : String) (e : EntryPoint) : Loading :=
  if r.contains e.name then { registry := r, log := [r.skippedRecord e.name] }
  else
    match e.load with
    | .error f => { registry := r, log := [unloadedRecord group e.name f] }
    | .ok c =>
      match r.registerAs e.name c with
      | .ok r' => { registry := r', log := r.registerLog e.name c }
      | .error (.unshown b) => { registry := r, fault := some b }
      | .error _ => { registry := r, log := [r.refusedRecord e.name] }

/-- The entry-points of a group, in order. -/
def load (r : Registry) (group : String) : List EntryPoint → Loading
  | [] => { registry := r }
  | e :: es =>
    if e.group = group then
      let one := r.loadOne group e
      match one.fault with
      | some _ => one
      | none =>
        let rest := one.registry.load group es
        { rest with log := one.log ++ rest.log }
    else r.load group es

end Registry

end CommentStyle
