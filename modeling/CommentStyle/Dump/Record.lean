import CommentStyle.Comment
import CommentStyle.Value

/-!
# Records of a comment dump

A dump is a list of records, or a mapping that holds one under `comments`, as a parser of source files
writes it. A record is a mapping with the comment's text under `value` (or `text`), its kind under `type`
and its place under `loc`, all but the text optional. Reading reports the first record at fault.
-/

namespace CommentStyle

/-- Why data or a text is no comment dump. -/
inductive DumpFault where
  | noComments
  | notRecords (kind : String)
  | notMapping (index : Int) (kind : String)
  | noText (index : Int)
  | unknownKind (index : Int) (shown : String)
  /-- The kind is unknown, and has no text to be reported with. -/
  | unshownKind (f : ShowFault)
  | malformedPlace (index : Int)
  | notWholePlace (index : Int)
  | invalidJson (reason : String)
  /-- The text is no YAML, about which its parser has more to say. -/
  | invalidYaml (text : String)
deriving DecidableEq, Repr

namespace DumpFault

def ofRecord (index : Int) (rest : String) : String := "Comment record " ++ toString index ++ rest

/-- What is reported, with what the parser says of a text that is no YAML. -/
def message (explain : String → String) : DumpFault → String
  | noComments => "Comment dump mapping has no 'comments' key"
  | notRecords kind => "Comment dump must be a list of records, got " ++ kind
  | notMapping index kind => ofRecord index (" must be a mapping, got " ++ kind)
  | noText index => ofRecord index " has no string 'value'"
  | unknownKind index shown => ofRecord index (" has unknown type " ++ shown)
  | unshownKind f => f.message
  | malformedPlace index => ofRecord index " has a malformed 'loc'"
  | notWholePlace index => ofRecord index " has a non-integer line or column"
  | invalidJson reason => "Invalid JSON comment dump: " ++ reason
  | invalidYaml text => "Invalid YAML comment dump: " ++ explain text

end DumpFault

namespace Value

def ordinal? : Value → Option Ordinal
  | int n => some (.number n)
  | bool b => some (.flag b)
  | _ => none

end Value

def Ordinal.toValue : Ordinal → Value
  | number n => .int n
  | flag b => .bool b

@[simp] theorem Ordinal.ordinal?_toValue (o : Ordinal) : o.toValue.ordinal? = some o := by
  cases o <;> rfl

namespace Dump

/-- The kind of comment a record names; without a name it is a line comment. -/
def kindOf (index : Int) (record : List (Value × Value)) : Except DumpFault Comment.Kind :=
  match Value.field? "type" record with
  | none => .ok .line
  | some v =>
    let known := match v with
      | .str w => Comment.Kind.ofWord? w
      | _ => none
    match known with
    | some k => .ok k
    | none =>
      match v.shown with
      | .ok shown => .error (.unknownKind index shown)
      | .error f => .error (.unshownKind f)

/-- A place of a record; without one, or with null, it is unknown. -/
def placeOf (index : Int) (record : List (Value × Value)) : Except DumpFault Position :=
  match Value.field? "loc" record with
  | none | some .null => .ok .unknown
  | some loc =>
    match loc.entries?.bind (Value.field? "start") |>.bind Value.entries? with
    | none => .error (.malformedPlace index)
    | some start =>
      let line := (Value.field? "line" start).getD (.int 0)
      let column := (Value.field? "column" start).getD (.int 0)
      match line.ordinal?, column.ordinal? with
      | some l, some c => .ok ⟨l, c⟩
      | _, _ => .error (.notWholePlace index)

/-- The entry under `value` if there is one, whatever it is, and else the entry under `text`. -/
def textOf (record : List (Value × Value)) : Option Value :=
  (Value.field? "value" record).or (Value.field? "text" record)

/-- Reads one record, `index` being its place in the dump. -/
def comment (index : Int) (record : Value) : Except DumpFault Comment :=
  match record.entries? with
  | none => .error (.notMapping index record.kindName)
  | some es =>
    match textOf es with
    | some (.str text) => do
      let kind ← kindOf index es
      let location ← placeOf index es
      return { text, location, kind }
    | _ => .error (.noText index)

/-- Reads the records from the given index on. -/
def commentsFrom (index : Nat) : List Value → Except DumpFault (List Comment)
  | [] => .ok []
  | record :: rest => do
    let c ← comment index record
    let cs ← commentsFrom (index + 1) rest
    return c :: cs

/-- The records of a list; null stands for none. -/
def records (body : Value) : Except DumpFault (List Comment) :=
  match body with
  | .null => .ok []
  | body =>
    match body.items? with
    | some xs => commentsFrom 0 xs
    | none => .error (.notRecords body.kindName)

/-- Reads a list of records, or a mapping that holds one under `comments`. -/
def ofData (data : Value) : Except DumpFault (List Comment) :=
  match data.entries? with
  | some es =>
    match Value.field? "comments" es with
    | some body => records body
    | none => .error .noComments
  | none => records data

/-! ## Writing -/

def positionData (p : Position) : Value :=
  .map [(.str "line", p.line.toValue), (.str "column", p.column.toValue)]

def recordData (c : Comment) : Value :=
  .map [(.str "type", .str c.kind.word), (.str "value", .str c.text),
    (.str "loc", .map [(.str "start", positionData c.location)])]

def toData (cs : List Comment) : Value := .list (cs.map recordData)

end Dump

end CommentStyle
