import CommentStyle.Number.Word
import CommentStyle.Value

/-!
# Reading JSON

Strict JSON, with the three number words `NaN`, `Infinity` and `-Infinity` besides. Of members with one
name the last gives the value and the first the place. Reading works on the characters still ahead; the
place of a fault is kept as the number of characters that were left there, and turned into line, column and
index once, at the end.
-/

namespace CommentStyle.Json

/-- What a text lacks to be JSON. -/
inductive Cause where
  | value
  | memberName
  | colon
  | comma
  | nothingMore
  | closingQuote
  | plainCharacter
  | knownEscape
  | hexEscape
  | noByteOrderMark
deriving DecidableEq, Repr

def Cause.text : Cause → String
  | value => "Expecting value"
  | memberName => "Expecting property name enclosed in double quotes"
  | colon => "Expecting ':' delimiter"
  | comma => "Expecting ',' delimiter"
  | nothingMore => "Extra data"
  | closingQuote => "Unterminated string starting at"
  | plainCharacter => "Invalid control character at"
  | knownEscape => "Invalid \\escape"
  | hexEscape => "Invalid \\uXXXX escape"
  | noByteOrderMark => "Unexpected UTF-8 BOM (decode using utf-8-sig)"

inductive Fault where
  /-- The text is not JSON: line and column from 1, index from 0. -/
  | malformed (cause : Cause) (line column index : Nat)
  | number (f : NumberFault)
  /-- Too many collections are open, the innermost being an object or an array. -/
  | tooDeep (inObject : Bool)
deriving DecidableEq, Repr

def Fault.message : Fault → String
  | malformed cause line column index =>
    cause.text ++ ": line " ++ toString line ++ " column " ++ toString column ++ " (char "
      ++ toString index ++ ")"
  | number f => f.message
  | tooDeep inObject =>
    "maximum recursion depth exceeded while decoding a JSON "
      ++ (if inObject then "object" else "array") ++ " from a unicode string"

/-- A fault while reading, its place given by the count of characters left. -/
inductive Halt where
  | malformed (cause : Cause) (left : Nat)
  | number (f : NumberFault)
  | tooDeep (inObject : Bool)
deriving DecidableEq, Repr

/-- What a reader puts up with. -/
structure Limits where
  /-- Decimal digits of a whole number. -/
  digits : Option Nat := some NumberFault.digitLimit
  /-- Collections inside one another: what the host's thousand nested calls leave, some of which have begun where
  a text is read. -/
  depth : Option Nat := some 990

/-- No limit at all. -/
def Limits.none : Limits := ⟨Option.none, Option.none⟩

def isBlank (c : Char) : Bool := c == ' ' || c == '\t' || c == '\n' || c == '\r'

def skipBlanks (cs : List Char) : List Char := cs.dropWhile isBlank

/-! ## Strings -/

def hexValue? (c : Char) : Option Nat :=
  if '0' ≤ c ∧ c ≤ '9' then some (c.toNat - '0'.toNat)
  else if 'a' ≤ c ∧ c ≤ 'f' then some (c.toNat - 'a'.toNat + 10)
  else if 'A' ≤ c ∧ c ≤ 'F' then some (c.toNat - 'A'.toNat + 10)
  else none

/-- The value of four hexadecimal digits. -/
def unit? (a b c d : Char) : Option Nat := do
  let a ← hexValue? a
  let b ← hexValue? b
  let c ← hexValue? c
  let d ← hexValue? d
  return ((a * 16 + b) * 16 + c) * 16 + d

def isHighSurrogate (u : Nat) : Bool := 0xD800 ≤ u && u < 0xDC00

def isLowSurrogate (u : Nat) : Bool := 0xDC00 ≤ u && u < 0xE000

/-- The character of a unit; a surrogate alone has none and is replaced. -/
def unitChar (u : Nat) : Char :=
  if isHighSurrogate u || isLowSurrogate u then '\uFFFD' else Char.ofNat u

def joined (high low : Nat) : Char :=
  Char.ofNat (0x10000 + (high - 0xD800) * 0x400 + (low - 0xDC00))

/-- The characters of code units, a high surrogate and the low one after it making one. -/
def charsOfUnits : List Nat → List Char
  | [] => []
  | [u] => [unitChar u]
  | u :: v :: rest =>
    if isHighSurrogate u && isLowSurrogate v then joined u v :: charsOfUnits rest
    else unitChar u :: charsOfUnits (v :: rest)

/-- The character that a one-letter escape stands for. -/
def escaped? (c : Char) : Option Char :=
  if c == '"' || c == '\\' || c == '/' then some c
  else if c == 'b' then some '\x08'
  else if c == 'f' then some '\x0c'
  else if c == 'n' then some '\n'
  else if c == 'r' then some '\r'
  else if c == 't' then some '\t'
  else none

/-- The units of a string up to its closing quote, and what follows. A hexadecimal escape is read only if a
character follows it, since the string must still be closed. -/
def stringUnits (opening : List Char) : List Char → Except Halt (List Nat × List Char)
  | [] => .error (.malformed .closingQuote opening.length)
  | '"' :: rest => .ok ([], rest)
  | '\\' :: 'u' :: a :: b :: c :: d :: rest =>
    match unit? a b c d, rest.isEmpty with
    | some u, false => (stringUnits opening rest).map fun (us, r) => (u :: us, r)
    | _, _ => .error (.malformed .hexEscape (rest.length + 5))
  | '\\' :: 'u' :: rest => .error (.malformed .hexEscape (rest.length + 1))
  | ['\\'] => .error (.malformed .closingQuote opening.length)
  | '\\' :: c :: rest =>
    match escaped? c with
    | some d => (stringUnits opening rest).map fun (us, r) => (d.toNat :: us, r)
    | none => .error (.malformed .knownEscape (rest.length + 2))
  | c :: rest =>
    if c.toNat < 0x20 then .error (.malformed .plainCharacter (rest.length + 1))
    else (stringUnits opening rest).map fun (us, r) => (c.toNat :: us, r)

/-- A string after its opening quote, `opening` being the text from that quote on. -/
def string (opening : List Char) (cs : List Char) : Except Halt (String × List Char) :=
  (stringUnits opening cs).map fun (us, rest) => (String.ofList (charsOfUnits us), rest)

/-! ## Numbers -/

def isDigit (c : Char) : Bool := '0' ≤ c && c ≤ '9'

/-- The digits of the whole part: a lone zero, or a row that does not begin with one. -/
def wholeDigits : List Char → List Char × List Char
  | '0' :: rest => (['0'], rest)
  | cs => (cs.takeWhile isDigit, cs.dropWhile isDigit)

/-- A fraction, if a digit follows the point. -/
def fraction : List Char → List Char × List Char
  | '.' :: rest =>
    if (rest.takeWhile isDigit).isEmpty then ([], '.' :: rest)
    else ('.' :: rest.takeWhile isDigit, rest.dropWhile isDigit)
  | cs => ([], cs)

/-- An exponent, if a digit follows its mark and sign. -/
def exponent (cs : List Char) : List Char × List Char :=
  match cs with
  | e :: rest =>
    if e == 'e' || e == 'E' then
      let (sign, ds) := match rest with
        | '+' :: r => (['+'], r)
        | '-' :: r => (['-'], r)
        | r => ([], r)
      if (ds.takeWhile isDigit).isEmpty then ([], cs)
      else (e :: sign ++ ds.takeWhile isDigit, ds.dropWhile isDigit)
    else ([], cs)
  | [] => ([], [])

def number (limits : Limits) (cs : List Char) : Except Halt (Value × List Char) :=
  let (sign, rest) := match cs with
    | '-' :: r => (['-'], r)
    | r => ([], r)
  let (digits, rest) := wholeDigits rest
  if digits.isEmpty then .error (.malformed .value cs.length)
  else
    let (part, rest) := fraction rest
    let (power, rest) := exponent rest
    if part.isEmpty && power.isEmpty then
      if limits.digits.any fun most => digits.length > most then
        .error (.number (.tooManyDigits digits.length))
      else
        let n := Number.ofDigits 10 (digits.filterMap hexValue?)
        .ok (.int (Number.signed (!sign.isEmpty) n), rest)
    else
      match Number.real? (sign ++ digits ++ part ++ power) with
      | .ok x => .ok (.float x, rest)
      | .error f => .error (.number f)

/-! ## Values -/

/-- The rest after a word the text begins with. -/
def afterWord? (word cs : List Char) : Option (List Char) :=
  if word.isPrefixOf cs then some (cs.drop word.length) else none

/-- A value that is neither string nor collection. -/
def bareValue (limits : Limits) (cs : List Char) : Except Halt (Value × List Char) :=
  match afterWord? ['n', 'u', 'l', 'l'] cs with
  | some rest => .ok (.null, rest)
  | none =>
  match afterWord? ['t', 'r', 'u', 'e'] cs with
  | some rest => .ok (.bool true, rest)
  | none =>
  match afterWord? ['f', 'a', 'l', 's', 'e'] cs with
  | some rest => .ok (.bool false, rest)
  | none =>
  match afterWord? ['N', 'a', 'N'] cs with
  | some rest => .ok (.float .nan, rest)
  | none =>
  match afterWord? ['I', 'n', 'f', 'i', 'n', 'i', 't', 'y'] cs with
  | some rest => .ok (.float (.infinite false), rest)
  | none =>
  match afterWord? ['-', 'I', 'n', 'f', 'i', 'n', 'i', 't', 'y'] cs with
  | some rest => .ok (.float (.infinite true), rest)
  | none => number limits cs

def tooDeep (limits : Limits) (depth : Nat) : Bool :=
  limits.depth.any fun most => depth ≥ most

/-- A member's name, its colon, and what follows them. -/
def memberName (cs : List Char) : Except Halt (String × List Char) :=
  match cs with
  | '"' :: rest => do
    let (name, rest) ← string cs rest
    match skipBlanks rest with
    | ':' :: rest => .ok (name, skipBlanks rest)
    | rest => .error (.malformed .colon rest.length)
  | _ => .error (.malformed .memberName cs.length)

mutual

/-- The value at the head of the text, `depth` collections being open. The fuel bounds the steps and is
enough when it exceeds twice the length of the text. -/
def value (limits : Limits) (depth : Nat) : Nat → List Char → Except Halt (Value × List Char)
  | 0, cs => .error (.malformed .value cs.length)
  | fuel + 1, cs =>
    match cs with
    | '"' :: rest => (string cs rest).map fun (s, r) => (.str s, r)
    | '[' :: rest =>
      if tooDeep limits depth then .error (.tooDeep false)
      else
        match skipBlanks rest with
        | ']' :: rest => .ok (.list [], rest)
        | rest => (items limits (depth + 1) fuel rest).map fun (vs, r) => (.list vs, r)
    | '{' :: rest =>
      if tooDeep limits depth then .error (.tooDeep true)
      else
        match skipBlanks rest with
        | '}' :: rest => .ok (.map [], rest)
        | rest => (members limits (depth + 1) fuel rest).map fun (es, r) => (.map (Value.mapOf es), r)
    | cs => bareValue limits cs

/-- The items of an array up to its closing bracket. -/
def items (limits : Limits) (depth : Nat) : Nat → List Char → Except Halt (List Value × List Char)
  | 0, cs => .error (.malformed .value cs.length)
  | fuel + 1, cs => do
    let (v, rest) ← value limits depth fuel cs
    match skipBlanks rest with
    | ']' :: rest => .ok ([v], rest)
    | ',' :: rest =>
      let (vs, rest) ← items limits depth fuel (skipBlanks rest)
      .ok (v :: vs, rest)
    | rest => .error (.malformed .comma rest.length)

/-- The members of an object up to its closing brace. -/
def members (limits : Limits) (depth : Nat) :
    Nat → List Char → Except Halt (List (Value × Value) × List Char)
  | 0, cs => .error (.malformed .value cs.length)
  | fuel + 1, cs => do
    let (name, rest) ← memberName cs
    let (v, rest) ← value limits depth fuel rest
    match skipBlanks rest with
    | '}' :: rest => .ok ([(.str name, v)], rest)
    | ',' :: rest =>
      let (es, rest) ← members limits depth fuel (skipBlanks rest)
      .ok ((.str name, v) :: es, rest)
    | rest => .error (.malformed .comma rest.length)

end

/-- The one value of a text, with blanks around it. -/
def document (limits : Limits) (cs : List Char) : Except Halt Value :=
  match cs with
  | '\uFEFF' :: _ => .error (.malformed .noByteOrderMark cs.length)
  | cs => do
    let (v, rest) ← value limits 0 (2 * cs.length + 1) (skipBlanks cs)
    match skipBlanks rest with
    | [] => .ok v
    | rest => .error (.malformed .nothingMore rest.length)

/-- A fault with its place: lines end at line feeds only. -/
def Halt.locate (cs : List Char) : Halt → Fault
  | malformed cause left =>
    let index := cs.length - left
    let before := cs.take index
    .malformed cause (before.count '\n' + 1)
      ((before.reverse.takeWhile (· ≠ '\n')).length + 1) index
  | number f => .number f
  | tooDeep inObject => .tooDeep inObject

def read (text : String) (limits : Limits := {}) : Except Fault Value :=
  (document limits text.toList).mapError (Halt.locate text.toList)

end CommentStyle.Json
