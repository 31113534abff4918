import CommentStyle.Files.Path
import CommentStyle.Text.Utf8

/-!
# Files

The files and directories a run sees, and its working directory. A path is followed component by component,
so that what stands on the way has to be a directory, and one that may be searched. There are limits to the
length of a path and of its components. Texts are UTF-8, and every line end is read as a line feed.
-/

namespace CommentStyle

open CommentStyle.Path (Place)

inductive Entry where
  | file (octets : List UInt8)
  | directory
deriving DecidableEq, Repr

structure Files where
  entries : List (Place × Entry) := []
  workingDirectory : Place := []
  /-- The directories that may not be searched, and the files that may not be read. -/
  closed : List Place := []

/-- Why a path cannot be opened as a file. -/
inductive FileFault where
  | missing
  | isDirectory
  | notDirectory
  | nameTooLong
  | denied
deriving DecidableEq, Repr

namespace FileFault

def code : FileFault → Nat
  | missing => 2
  | isDirectory => 21
  | notDirectory => 20
  | nameTooLong => 36
  | denied => 13

def text : FileFault → String
  | missing => "No such file or directory"
  | isDirectory => "Is a directory"
  | notDirectory => "Not a directory"
  | nameTooLong => "File name too long"
  | denied => "Permission denied"

def message (f : FileFault) (path : Path) : String :=
  "[Errno " ++ toString f.code ++ "] " ++ f.text ++ ": " ++ Text.quoted path.text

end FileFault

namespace Files

/-- What is at a place. A place that something lies below is a directory. -/
def entry? (fs : Files) (place : Place) : Option Entry :=
  match fs.entries.lookup place with
  | some e => some e
  | none => if place = [] ∨ fs.entries.any (fun e => place.isPrefixOf e.1) then some .directory else none

def isFile (fs : Files) (place : Place) : Bool :=
  match fs.entry? place with
  | some (.file _) => true
  | _ => false

/-- The most octets of a component. -/
def partLimit : Nat := 255

/-- The most octets of a path. -/
def pathLimit : Nat := 4095

/-- Follows components from a place. -/
def follow (fs : Files) (place : Place) : List String → Except FileFault Place
  | [] => .ok place
  | part :: rest =>
    match fs.entry? place with
    | some .directory =>
      if fs.closed.contains place then .error .denied
      else if partLimit < part.utf8ByteSize then .error .nameTooLong
      else fs.follow (Path.enter place part) rest
    | some (.file _) => .error .notDirectory
    | none => .error .missing

/-- The place a path leads to. -/
def reach (fs : Files) (path : Path) : Except FileFault Place :=
  if pathLimit < path.text.utf8ByteSize then .error .nameTooLong
  else fs.follow (path.origin fs.workingDirectory) path.parts

/-- The octets of the file a path leads to. -/
def octets (fs : Files) (path : Path) : Except FileFault (List UInt8) :=
  match fs.reach path with
  | .error f => .error f
  | .ok place =>
    match fs.entry? place with
    | some (.file os) => if fs.closed.contains place then .error .denied else .ok os
    | some .directory => .error .isDirectory
    | none => .error .missing

/-- Why it cannot even be told whether there is a file at a place. A place that is not there is none. -/
def barred? (fs : Files) (place : Place) : Option FileFault :=
  match fs.reach (Path.ofPlace place) with
  | .error .nameTooLong => some .nameTooLong
  | .error .denied => some .denied
  | _ => none

end Files

/-- No file can have a name that holds the null character. -/
@[irreducible] def hasNull (path : String) : Bool := path.toList.any (· = '\x00')

def nullMessage : String := "embedded null byte"

/-- Why a path gives no text. -/
inductive TextFault where
  | nullName
  | file (f : FileFault) (path : Path)
  | encoding (f : Text.Utf8.Fault)
deriving DecidableEq, Repr

def TextFault.message : TextFault → String
  | nullName => nullMessage
  | file f path => f.message path
  | encoding f => f.message

def Files.text (fs : Files) (path : Path) : Except TextFault String :=
  if hasNull path.text then .error .nullName
  else match fs.octets path with
  | .error f => .error (.file f path)
  | .ok os =>
    match Text.Utf8.decode os with
    | .error f => .error (.encoding f)
    | .ok cs => .ok (String.ofList (Text.unifyLineEnds cs))

end CommentStyle
