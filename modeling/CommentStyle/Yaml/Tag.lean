import CommentStyle.Yaml.Scalar

/-!
# Tags

Every node has a tag that says what value it makes. A plain scalar without a tag is given one by its form:
the words of truth and null, whole numbers in four bases or to base sixty, numbers with a point, and dates.
Whatever has no such form is a text.
-/

namespace CommentStyle.Yaml

inductive Tag where
  | null
  | bool
  | int
  | float
  | str
  | binary
  | timestamp
  | seq
  | map
  | set
  | omap
  | pairs
  | merge
  | value
  | other
deriving DecidableEq, Repr

namespace Tag

/-- Tags that make a value of a text. -/
def isScalar : Tag → Bool
  | null | bool | int | float | str | binary | timestamp => true
  | _ => false

/-- The start of the names of the common tags. -/
def commonStart : String := "tag:yaml.org,2002:"

/-- The tag of a full name. -/
def ofName (name : String) : Tag :=
  let common := [("null", null), ("bool", bool), ("int", int), ("float", float), ("str", str),
    ("binary", binary), ("timestamp", timestamp), ("seq", seq), ("map", map), ("set", set),
    ("omap", omap), ("pairs", pairs), ("merge", merge), ("value", value)]
  match common.find? fun (short, _) => commonStart ++ short = name with
  | some (_, tag) => tag
  | none => other

end Tag

/-! ## The forms of plain scalars -/

namespace Form

def isDigit (c : Char) : Bool := '0' ≤ c && c ≤ '9'

/-- A digit, or the underscore that may divide digits. -/
def isDigitOrBar (c : Char) : Bool := isDigit c || c == '_'

def dropSign : List Char → List Char
  | '-' :: rest => rest
  | '+' :: rest => rest
  | rest => rest

def isTruthWord (text : List Char) : Bool :=
  ["yes", "Yes", "YES", "no", "No", "NO", "true", "True", "TRUE", "false", "False", "FALSE",
    "on", "On", "ON", "off", "Off", "OFF"].contains (String.ofList text)

def isNullWord (text : List Char) : Bool :=
  ["", "~", "null", "Null", "NULL"].contains (String.ofList text)

/-- Groups of a colon and one or two digits below sixty, at least one group; the rest after them. -/
def sixties? : Nat → List Char → Option (List Char)
  | 0, _ => none
  | fuel + 1, cs =>
    match cs with
    | ':' :: rest =>
      let group := rest.takeWhile isDigit
      let rest := rest.dropWhile isDigit
      let fits := group.length = 1 || (group.length = 2 && group.head?.any (· ≤ '5'))
      if !fits then none
      else if rest.head? == some ':' then sixties? fuel rest
      else some rest
    | _ => none

/-- Nothing, or an exponent: its mark, a sign and digits. -/
def isExponentOrEnd : List Char → Bool
  | [] => true
  | e :: s :: d :: rest =>
    (e == 'e' || e == 'E') && (s == '-' || s == '+') && isDigit d && rest.all isDigit
  | _ => false

def isFloat (text : List Char) : Bool :=
  let body := dropSign text
  let infinity := [".inf", ".Inf", ".INF"].contains (String.ofList body)
  let nan := [".nan", ".NaN", ".NAN"].contains (String.ofList text)
  let pointFirst := match text with
    | '.' :: d :: rest => isDigit d && isExponentOrEnd (rest.dropWhile isDigitOrBar)
    | _ => false
  let digitFirst := body.head?.any isDigit &&
    (let rest := body.dropWhile isDigitOrBar
    let simple := match rest with
      | '.' :: rest => isExponentOrEnd (rest.dropWhile isDigitOrBar)
      | _ => false
    let sixty := match sixties? rest.length rest with
      | some ('.' :: rest) => rest.all isDigitOrBar
      | _ => false
    simple || sixty)
  infinity || nan || pointFirst || digitFirst

def isInt (text : List Char) : Bool :=
  let isHex (c : Char) : Bool := Scalar.isHexDigit c || c == '_'
  match dropSign text with
  | ['0'] => true
  | '0' :: 'b' :: d :: rest => (d :: rest).all fun c => c == '0' || c == '1' || c == '_'
  | '0' :: 'x' :: d :: rest => (d :: rest).all isHex
  | '0' :: d :: rest => (d :: rest).all fun c => ('0' ≤ c && c ≤ '7') || c == '_'
  | d :: rest =>
    isDigit d &&
      (let rest := rest.dropWhile isDigitOrBar
      rest.isEmpty || sixties? rest.length rest == some [])
  | [] => false

/-- One or two digits at the head. -/
def oneOrTwo? (cs : List Char) : Option (List Char × List Char) :=
  match cs with
  | a :: b :: rest =>
    if isDigit a && isDigit b then some ([a, b], rest)
    else if isDigit a then some ([a], b :: rest) else none
  | [a] => if isDigit a then some ([a], []) else none
  | [] => none

/-- Exactly two digits at the head. -/
def two? (cs : List Char) : Option (List Char × List Char) :=
  match cs with
  | a :: b :: rest => if isDigit a && isDigit b then some ([a, b], rest) else none
  | _ => none

/-- The parts of a time of day as written. -/
structure ClockParts where
  hour : List Char
  minute : List Char
  second : List Char
  fraction : List Char
  /-- Nothing, or the sign, hours and minutes of a zone; universal time has no sign. -/
  zone : Option (Option Char × List Char × List Char)

/-- The parts of a date as written, with the time of day if there is one. -/
structure TimestampParts where
  year : List Char
  month : List Char
  day : List Char
  clock : Option ClockParts

def zone? (cs : List Char) : Option (Option (Option Char × List Char × List Char)) :=
  match cs with
  | [] => some none
  | _ =>
    match cs.dropWhile isSpace with
    | ['Z'] => some (some (none, [], []))
    | s :: rest =>
      if s == '-' || s == '+' then
        match oneOrTwo? rest with
        | some (hours, []) => some (some (some s, hours, []))
        | some (hours, ':' :: rest) =>
          match two? rest with
          | some (minutes, []) => some (some (some s, hours, minutes))
          | _ => none
        | _ => none
      else none
    | [] => none

def clock? (cs : List Char) : Option ClockParts := do
  let (hour, rest) ← oneOrTwo? cs
  let rest ← match rest with
    | ':' :: rest => some rest
    | _ => none
  let (minute, rest) ← two? rest
  let rest ← match rest with
    | ':' :: rest => some rest
    | _ => none
  let (second, rest) ← two? rest
  let (fraction, rest) := match rest with
    | '.' :: rest => (rest.takeWhile isDigit, rest.dropWhile isDigit)
    | rest => ([], rest)
  let zone ← zone? rest
  return { hour, minute, second, fraction, zone }

/-- A date of year, month and day, and perhaps a time of day behind it. -/
def timestamp? (text : List Char) : Option TimestampParts := do
  let year := text.take 4
  if year.length ≠ 4 ∨ !year.all isDigit then none
  let rest ← match text.drop 4 with
    | '-' :: rest => some rest
    | _ => none
  let (month, rest) ← oneOrTwo? rest
  let rest ← match rest with
    | '-' :: rest => some rest
    | _ => none
  let (day, rest) ← oneOrTwo? rest
  match rest with
  | [] => return { year, month, day, clock := none }
  | c :: more =>
    let timeText ←
      if c == 'T' || c == 't' then some more
      else if isSpace c then some (more.dropWhile isSpace)
      else none
    let clock ← clock? timeText
    return { year, month, day, clock := some clock }

/-- Without a time of day, month and day must have two digits. -/
def isTimestamp (text : List Char) : Bool :=
  match timestamp? text with
  | some parts => parts.clock.isSome || (parts.month.length = 2 && parts.day.length = 2)
  | none => false

/-- One line feed at the end does not change the form. -/
def withoutFinalBreak (text : List Char) : List Char :=
  match text.reverse with
  | '\n' :: c :: rest => (c :: rest).reverse
  | _ => text

end Form

/-- The tag of a plain scalar by its form. -/
def Tag.ofPlain (text : List Char) : Tag :=
  let word := Form.withoutFinalBreak text
  if Form.isTruthWord word then .bool
  else if Form.isFloat word then .float
  else if Form.isInt word then .int
  else if word = ['<', '<'] then .merge
  else if Form.isNullWord word then .null
  else if Form.isTimestamp word then .timestamp
  else if word = ['='] then .value
  else if word = ['!'] ∨ word = ['&'] ∨ word = ['*'] then .other
  else .str

end CommentStyle.Yaml
