import CommentStyle.Text.Quoted
import CommentStyle.Text.Similarity

/-!
# Arguments

Arguments are options and other words. A long option takes its value behind an equals sign or as the next
argument; short options may share a dash, and the one that takes a value takes what is left of the argument
or else the next one. Two dashes alone end the options.
-/

namespace CommentStyle.CommandLine

structure OptionSpec where
  long : String
  short : Option Char := none
  takesValue : Bool := false
deriving DecidableEq, Repr

/-- What is wrong with the arguments. -/
inductive UsageFault where
  | unknownOption (name : String) (close : List String)
  | unknownCommand (name : String) (close : List String)
  | needsValue (option : String)
  | takesNoValue (option : String)
  | badChoice (option value : String) (choices : List String)
  | missingCommand
  | missingFiles
  | extraArguments (args : List String)
deriving DecidableEq, Repr

namespace UsageFault

def hint : List String → String
  | [] => ""
  | [one] => " Did you mean " ++ Text.quoted one ++ "?"
  | several =>
    " (Did you mean one of: " ++ ", ".intercalate ((several.mergeSort (· ≤ ·)).map Text.quoted) ++ "?)"

def message : UsageFault → String
  | unknownOption name close => "No such option " ++ Text.quoted name ++ "." ++ hint close
  | unknownCommand name close => "No such command " ++ Text.quoted name ++ "." ++ hint close
  | needsValue option => "Option " ++ Text.quoted option ++ " requires an argument."
  | takesNoValue option => "Option " ++ Text.quoted option ++ " does not take a value."
  | badChoice option value choices =>
    "Invalid value for " ++ Text.quoted option ++ ": " ++ Text.quoted value ++ " is not one of "
      ++ ", ".intercalate (choices.map Text.quoted) ++ "."
  | missingCommand => "Missing command."
  | missingFiles => "Missing argument 'FILES...'."
  | extraArguments args =>
    "Got unexpected extra argument" ++ (if args.length = 1 then " (" else "s (")
      ++ " ".intercalate args ++ ")"

/-- A fault in the form of an option is reported without the usage of the command. -/
def showsUsage : UsageFault → Bool
  | needsValue _ | takesNoValue _ => false
  | _ => true

end UsageFault

/-- An option that was given, by its long name. -/
structure Given where
  option : String
  value : Option String := none
deriving DecidableEq, Repr

/-- An option still to take its value from the next argument, and the name it was given by. -/
structure Awaiting where
  option : String
  writtenAs : String
deriving DecidableEq, Repr

/-- The options given, in order, and the other words. -/
structure Arguments where
  options : List Given := []
  words : List String := []
deriving DecidableEq, Repr

namespace Arguments

def withOptions (gs : List Given) (a : Arguments) : Arguments := { a with options := gs ++ a.options }

def withWord (w : String) (a : Arguments) : Arguments := { a with words := w :: a.words }

def gives (a : Arguments) (option : String) : Bool := a.options.any (·.option = option)

/-- The value of an option; of several the last. -/
def value? (a : Arguments) (option : String) : Option String :=
  (a.options.reverse.find? (·.option = option)).bind Given.value

/-- What one argument gives: options, of which the last may await its value. -/
abbrev Step := Except UsageFault (List Given × Option Awaiting)

/-- The short options behind a dash. -/
def shortOptions (specs : List OptionSpec) : List Char → Step
  | [] => .ok ([], none)
  | c :: rest =>
    match specs.find? (·.short = some c) with
    | none => .error (.unknownOption (String.ofList ['-', c]) [])
    | some spec =>
      if spec.takesValue then
        if rest = [] then .ok ([], some ⟨spec.long, String.ofList ['-', c]⟩)
        else .ok ([⟨spec.long, some (String.ofList rest)⟩], none)
      else (shortOptions specs rest).map fun (gs, awaiting) => (⟨spec.long, none⟩ :: gs, awaiting)

/-- One argument that begins with a dash. -/
def option (specs : List OptionSpec) (arg : List Char) : Step :=
  let name := String.ofList (arg.takeWhile (· ≠ '='))
  let explicit := match arg.dropWhile (· ≠ '=') with
    | [] => none
    | _ :: value => some (String.ofList value)
  match specs.find? (·.long = name) with
  | some spec =>
    match spec.takesValue, explicit with
    | true, some value => .ok ([⟨spec.long, some value⟩], none)
    | true, none => .ok ([], some ⟨spec.long, name⟩)
    | false, some _ => .error (.takesNoValue name)
    | false, none => .ok ([⟨spec.long, none⟩], none)
  | none =>
    if arg.take 2 = ['-', '-'] then
      .error (.unknownOption name (Text.suggestions name (specs.map OptionSpec.long)))
    else shortOptions specs (arg.drop 1)

def isOption (arg : List Char) : Bool := arg.head? = some '-' && 1 < arg.length

/-- Reads arguments. Where options and words may not be mixed, the first word ends the options. -/
def read (specs : List OptionSpec) (mixed : Bool) (awaiting : Option Awaiting) :
    List String → Except UsageFault Arguments
  | [] =>
    match awaiting with
    | some a => .error (.needsValue a.writtenAs)
    | none => .ok {}
  | arg :: rest =>
    match awaiting with
    | some a => (read specs mixed none rest).map (withOptions [⟨a.option, some arg⟩])
    | none =>
      if arg = "--" then .ok { words := rest }
      else if isOption arg.toList then
        match option specs arg.toList with
        | .error f => .error f
        | .ok (gs, awaiting) => (read specs mixed awaiting rest).map (withOptions gs)
      else if mixed then (read specs mixed none rest).map (withWord arg)
      else .ok { words := arg :: rest }

end Arguments

end CommentStyle.CommandLine
