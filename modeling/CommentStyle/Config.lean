import CommentStyle.Files.Tree
import CommentStyle.Json.Reader
import CommentStyle.Linter
import CommentStyle.Yaml.Reader

/-!
# Configuration files

A configuration file maps rule names to option values. It is searched for from a directory upwards: the
nearest directory that holds one under any of the accepted names wins, and within it the first name. The search
breaks off at the first place of which it cannot be told whether it is a file.
-/

namespace CommentStyle.Config

open CommentStyle.Path (Place)

/-- The accepted names, the first found being taken. -/
def fileNames : List String :=
  [".commentlintrc", ".commentlintrc.json", ".commentlintrc.yaml", ".commentlintrc.yml"]

/-- A place and all above it, the nearest first. -/
def upwards : Nat → Place → List Place
  | 0, place => [place]
  | fuel + 1, place => if place = [] then [place] else place :: upwards fuel place.dropLast

/-- The place itself and every place above it. -/
def ancestors (place : Place) : List Place := upwards place.length place

/-- The places where a configuration file may be, in the order of the search. -/
def candidates (place : Place) : List Place :=
  (ancestors place).flatMap fun directory => fileNames.map fun name => directory ++ [name]

/-- Why a file gives no options, or none is found. -/
inductive Fault where
  | unreadable (f : FileFault) (path : Path)
  | unparsable (path : Path) (reason : String)
  /-- The text is no YAML, about which its parser has more to say. -/
  | notYaml (path : Path) (text : String)
  | notMapping (path : Path) (kind : String)
  | nullName
  /-- It cannot be told whether there is a file at a place. -/
  | unsearchable (f : FileFault) (place : Place)
  /-- A key has no text. -/
  | key (f : ShowFault)
  | encoding (f : Text.Utf8.Fault)
  | json (f : Json.Fault)
  | yaml (f : Yaml.Unmade)
deriving DecidableEq, Repr

namespace Fault

/-- What is reported, with what the parser says of a text that is no YAML. -/
def message (explain : String → String) : Fault → String
  | unreadable f path => "Cannot read config file " ++ path.text ++ ": " ++ f.message path
  | unparsable path reason => "Cannot parse config file " ++ path.text ++ ": " ++ reason
  | notYaml path text => "Cannot parse config file " ++ path.text ++ ": " ++ explain text
  | notMapping path kind =>
    "Config file " ++ path.text ++ " must contain a mapping of rule options, got " ++ kind
  | nullName => nullMessage
  | unsearchable f place => f.message (Path.ofPlace place)
  | key f => f.message
  | encoding f => f.message
  | json f => f.message
  | yaml f => f.message

/-- The file is at fault as a configuration, rather than in its name, its encoding or a value. -/
def isConfiguration : Fault → Bool
  | unreadable _ _ | unparsable _ _ | notYaml _ _ | notMapping _ _ => true
  | nullName | unsearchable _ _ | key _ | encoding _ | json _ | yaml _ => false

end Fault

/-! ## Searching -/

/-- The first of some places that is a file. -/
def firstFile (fs : Files) : List Place → Except Fault (Option Place)
  | [] => .ok none
  | place :: rest =>
    match fs.barred? place with
    | some f => .error (.unsearchable f place)
    | none => if fs.isFile place then .ok (some place) else firstFile fs rest

/-- Where a search starts, by default in the working directory. -/
def startPlace (fs : Files) (start : Option Path) : Place :=
  match start with
  | some path => path.resolve fs.workingDirectory
  | none => fs.workingDirectory

/-- The nearest configuration file at or above the start, which may be no path at all. -/
def search (fs : Files) (start : Option Path) : Except Fault (Option Place) :=
  if start.any fun path => hasNull path.text then .error .nullName
  else firstFile fs (candidates (startPlace fs start))

def foundRecord (place : Place) : LogRecord := .debug ("Using config file " ++ (Path.ofPlace place).text)

def searchLog (fs : Files) (start : Option Path) : List LogRecord :=
  match search fs start with
  | .ok found => (found.map foundRecord).toList
  | .error _ => []

/-! ## Reading -/

/-- The data of a text. Only a file named as JSON is read as JSON. -/
def data (path : Path) (text : String) : Except Fault Value :=
  if path.format = ".json" then
    match Json.read text with
    | .ok v => .ok v
    | .error (.malformed cause line column index) =>
      .error (.unparsable path (Json.Fault.malformed cause line column index).message)
    | .error f => .error (.json f)
  else
    match Yaml.read text with
    | .ok v => .ok v
    | .error .malformed => .error (.notYaml path text)
    | .error (.unmade f) => .error (.yaml f)

/-- Entries with their keys as words. -/
def named : List (Value × Value) → Except ShowFault (List (String × Value))
  | [] => .ok []
  | (key, value) :: rest => do
    let name ← key.word
    return (name, value) :: (← named rest)

/-- The options that data say: their keys as words, in order. Null says none. -/
def options (path : Path) (v : Value) : Except Fault Options :=
  match v.unfold with
  | .null => .ok []
  | .map entries =>
    match named entries with
    | .ok pairs => .ok (Options.ofPairs pairs)
    | .error f => .error (.key f)
  | _ => .error (.notMapping path v.kindName)

def load (fs : Files) (path : Path) : Except Fault Options :=
  match fs.text path with
  | .error .nullName => .error .nullName
  | .error (.file f p) => .error (.unreadable f p)
  | .error (.encoding f) => .error (.encoding f)
  | .ok text =>
    match data path text with
    | .error f => .error f
    | .ok v => options path v

end CommentStyle.Config
