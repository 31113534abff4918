import CommentStyle.Dump.Record
import CommentStyle.Files.Tree
import CommentStyle.Json.Reader
import CommentStyle.Json.Writer
import CommentStyle.Yaml.Reader
import CommentStyle.Yaml.Writer

/-!
# Comment dumps as texts

A dump is written as JSON or YAML and read back from either. A text that is not of the format, and data
that are no dump, are faults of the dump; a number or date that cannot be made or written, or nesting
beyond all bounds, is not. The suffix of a file says how its dump is written: `.yaml` and `.yml` are YAML, all
else is JSON.
-/

namespace CommentStyle

/-- Why a text gives no comments. -/
inductive ReadFault where
  | dump (f : DumpFault)
  | json (f : Json.Fault)
  | yaml (f : Yaml.Unmade)
  /-- Part of the data has no text to be reported with. -/
  | unshown (f : ShowFault)
deriving DecidableEq, Repr

def ReadFault.message (explain : String → String) : ReadFault → String
  | dump f => f.message explain
  | json f => f.message
  | yaml f => f.message
  | unshown f => f.message

/-- What kept a dump from being read, told apart from what is wrong with it as a dump. -/
def ReadFault.ofDump : DumpFault → ReadFault
  | .unshownKind f => unshown f
  | f => dump f

namespace Dump

def ofValue (data : Value) : Except ReadFault (List Comment) := (ofData data).mapError .ofDump

def ofJson (text : String) : Except ReadFault (List Comment) :=
  match Json.read text with
  | .ok data => ofValue data
  | .error (.malformed cause line column index) =>
    .error (.dump (.invalidJson (Json.Fault.malformed cause line column index).message))
  | .error f => .error (.json f)

def ofYaml (text : String) : Except ReadFault (List Comment) :=
  match Yaml.read text with
  | .ok data => ofValue data
  | .error .malformed => .error (.dump (.invalidYaml text))
  | .error (.unmade f) => .error (.yaml f)

/-- A dump can be written only if all numbers of its places can. -/
def writable (cs : List Comment) (text : String) : Except NumberFault String :=
  if cs.all fun c => c.location.isWritable then .ok text else .error .tooLong

/-- As JSON with each level indented by so many blanks, which is taken to fit a machine integer. -/
def toJson (cs : List Comment) (indent : Option Int := some 2) : Except NumberFault String :=
  writable cs (Json.render (.ofIndent indent) (toData cs))

def ordinalYaml : Ordinal → List Char
  | .number n => (toString n).toList
  | .flag b => (if b then "true" else "false").toList

/-- One record, its entries in the order of their names. -/
def recordYaml (c : Comment) : List Char :=
  "- loc:\n    start:\n      column: ".toList ++ ordinalYaml c.location.column
    ++ "\n      line: ".toList ++ ordinalYaml c.location.line
    ++ "\n  type: ".toList ++ c.kind.word.toList
    ++ "\n  value: ".toList ++ Yaml.Writer.text 9 c.text.toList ++ ['\n']

def toYaml (cs : List Comment) : Except NumberFault String :=
  writable cs (if cs.isEmpty then "[]\n" else String.ofList (cs.flatMap recordYaml))

end Dump

/-! ## Files -/

/-- Why a file gives no comments. -/
inductive LoadFault where
  | text (f : TextFault)
  | read (f : ReadFault)
deriving DecidableEq, Repr

def LoadFault.message (explain : String → String) : LoadFault → String
  | text f => f.message
  | read f => f.message explain

namespace Dump

def isYaml (path : Path) : Bool := path.format = ".yaml" || path.format = ".yml"

def ofText (path : Path) (text : String) : Except ReadFault (List Comment) :=
  if isYaml path then ofYaml text else ofJson text

def load (fs : Files) (path : Path) : Except LoadFault (List Comment) :=
  match fs.text path with
  | .error f => .error (.text f)
  | .ok text => (ofText path text).mapError .read

end Dump

end CommentStyle
