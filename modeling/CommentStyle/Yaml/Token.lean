import CommentStyle.Text.Utf8
import CommentStyle.Yaml.Scalar

/-!
# Tokens of a YAML text

The marks and scalars of a text in order, with the beginnings and ends of block collections made explicit
from the indentation. A key is recognised only at the colon behind it; the mark for it, and perhaps one for
the mapping it begins, are then put before the token that begins the key. So a token is handed out as soon
as it is known that no key begins with it, and the text is read no further than that takes.
-/

namespace CommentStyle.Yaml

/-- A tag as written: a handle, if any, and what follows it. -/
structure TagName where
  handle : Option String
  suffix : String
deriving DecidableEq, Repr

inductive Directive where
  | version (major minor : Nat)
  | tag (handle start : String)
  | other
deriving DecidableEq, Repr

inductive Token where
  | directive (d : Directive)
  | documentStart
  | documentEnd
  | streamEnd
  | blockSequence
  | blockMapping
  | blockEnd
  | flowSequence
  | flowSequenceEnd
  | flowMapping
  | flowMappingEnd
  | flowEntry
  | blockEntry
  | key
  | value
  | alias (name : String)
  | anchor (name : String)
  | tag (name : TagName)
  | scalar (text : List Char) (plain : Bool)
deriving DecidableEq, Repr

/-! ## Names -/

def isNameChar (ch : Char) : Bool :=
  ('0' ≤ ch && ch ≤ '9') || ('A' ≤ ch && ch ≤ 'Z') || ('a' ≤ ch && ch ≤ 'z') || ch == '-' || ch == '_'

def isUriChar (ch : Char) : Bool :=
  isNameChar ch || "-;/?:@&=+$,_.!~*'()[]%".toList.contains ch

/-- The name of an anchor or an alias, behind its mark. -/
def anchorName (c : Cursor) : Except Fault (String × Cursor) :=
  let (name, c) := c.span isNameChar
  if name.isEmpty then .error .malformed
  else if whiteOrEnd c.peek || c.peek.any "?:,]\x7d%@`".toList.contains then .ok (String.ofList name, c)
  else .error .malformed

/-- A row of octets, each written as a percent sign and two hexadecimal digits. -/
def uriOctets : Nat → Cursor → Except Fault (List UInt8 × Cursor)
  | 0, c => .ok ([], c)
  | fuel + 1, c =>
    match c.rest with
    | '%' :: a :: b :: _ =>
      match Number.digit? 16 a, Number.digit? 16 b with
      | some x, some y =>
        if Scalar.isHexDigit a && Scalar.isHexDigit b then
          (uriOctets fuel (c.skip 3)).map fun (os, c) => ((x * 16 + y).toUInt8 :: os, c)
        else .error .malformed
      | _, _ => .error .malformed
    | '%' :: _ => .error .malformed
    | _ => .ok ([], c)

/-- The characters of a tag, escapes of octets resolved. -/
def uriChars : Nat → Cursor → Except Fault (List Char × Cursor)
  | 0, c => .ok ([], c)
  | fuel + 1, c =>
    match c.peek with
    | some '%' => do
      let (octets, c) ← uriOctets (fuel + 1) c
      match Text.Utf8.decode octets with
      | .ok chars =>
        let (more, c) ← uriChars fuel c
        return (chars ++ more, c)
      | .error _ => throw .malformed
    | some ch =>
      if isUriChar ch then (uriChars fuel c.next).map fun (more, c) => (ch :: more, c)
      else .ok ([], c)
    | none => .ok ([], c)

def uri (fuel : Nat) (c : Cursor) : Except Fault (String × Cursor) := do
  if !(c.peek.any isUriChar) then throw .malformed
  let (chars, c) ← uriChars fuel c
  return (String.ofList chars, c)

/-- A tag handle: one exclamation mark, or a name between two. -/
def tagHandle (c : Cursor) : Except Fault (String × Cursor) :=
  match c.rest with
  | '!' :: ' ' :: _ => .ok ("!", c.next)
  | '!' :: _ =>
    let (name, c') := c.next.span isNameChar
    if c'.peek == some '!' then .ok (String.ofList ('!' :: name ++ ['!']), c'.next)
    else .error .malformed
  | _ => .error .malformed

/-- A tag, the cursor standing at its exclamation mark. -/
def tagName (fuel : Nat) (c : Cursor) : Except Fault (TagName × Cursor) := do
  let (name, c) ←
    if c.peekAt 1 == some '<' then do
      let (suffix, c) ← uri fuel (c.skip 2)
      if c.peek == some '>' then pure (⟨none, suffix⟩, c.next) else throw .malformed
    else if whiteOrEnd (c.peekAt 1) then pure (⟨none, "!"⟩, c.next)
    else do
      let word := c.next.rest.takeWhile fun ch => !(ch == ' ' || isBreak ch)
      let (handle, c) ← if word.contains '!' then tagHandle c else pure ("!", c.next)
      let (suffix, c) ← uri fuel c
      pure (⟨some handle, suffix⟩, c)
  if spaceBreakOrEnd c.peek then return (name, c) else throw .malformed

/-! ## Directives -/

def directiveNumber (c : Cursor) : Except Fault (Nat × Cursor) :=
  let (digits, c) := c.span fun ch => '0' ≤ ch && ch ≤ '9'
  if digits.isEmpty then .error .malformed
  else
    match Number.whole? 10 digits with
    | .ok n => .ok (n.toNat, c)
    | .error f => .error (.unmade (.number f))

/-- A directive, the cursor standing behind its percent sign. -/
def directive (fuel : Nat) (c : Cursor) : Except Fault (Directive × Cursor) := do
  let (name, c) := c.span isNameChar
  if name.isEmpty || !spaceBreakOrEnd c.peek then throw .malformed
  if name == ['Y', 'A', 'M', 'L'] then
    let (major, c) ← directiveNumber c.skipSpaces
    if c.peek ≠ some '.' then throw .malformed
    let (minor, c) ← directiveNumber c.next
    if !spaceBreakOrEnd c.peek then throw .malformed
    return (.version major minor, ← Scalar.endOfLine c)
  else if name == ['T', 'A', 'G'] then
    let (handle, c) ← tagHandle c.skipSpaces
    if c.peek ≠ some ' ' then throw .malformed
    let (start, c) ← uri fuel c.skipSpaces
    if !spaceBreakOrEnd c.peek then throw .malformed
    return (.tag handle start, ← Scalar.endOfLine c)
  else return (.other, ← Scalar.endOfLine c.skipLine)

/-! ## The lexer -/

/-- A token that may turn out to begin a key. -/
structure PendingKey where
  /-- How many tokens stand before it. -/
  number : Nat
  /-- The layout leaves no other reading. -/
  required : Bool
  index : Nat
  line : Nat
  column : Nat

structure Lexer where
  cursor : Cursor
  /-- Column of the innermost block collection, -1 outside of all. -/
  indent : Int := -1
  indents : List Int := []
  keyAllowed : Bool := true
  /-- For each open flow collection and the block around them, innermost first, the pending key. -/
  keys : List (Option PendingKey) := [none]
  /-- The tokens read and not handed out: the next ones in order, and those behind them, last first. -/
  ready : List Token := []
  recent : List Token := []
  /-- How many tokens were handed out, and how many were read. -/
  taken : Nat := 0
  count : Nat := 0
  /-- The end of the text was read. -/
  done : Bool := false
  /-- A bound on the steps that reading a token takes: the length of the text. -/
  size : Nat

namespace Lexer

def inFlow (l : Lexer) : Bool := l.keys.length > 1

def push (l : Lexer) (t : Token) : Lexer :=
  { l with recent := t :: l.recent, count := l.count + 1 }

/-- Puts tokens behind the first `number` ones of the text, none of the later ones being handed out. -/
def insertAt (l : Lexer) (number : Nat) (ts : List Token) : Lexer :=
  let before := number - l.taken
  let behind := l.count - number
  let l := { l with count := l.count + ts.length }
  if before < l.ready.length then { l with ready := l.ready.take before ++ ts ++ l.ready.drop before }
  else { l with recent := l.recent.take behind ++ ts.reverse ++ l.recent.drop behind }

def moveTo (l : Lexer) (c : Cursor) : Lexer := { l with cursor := c }

/-- Gives up the pending key of the innermost level; one that is required must not be given up. -/
def dropKey (l : Lexer) : Except Fault Lexer :=
  match l.keys with
  | some k :: rest => if k.required then .error .malformed else .ok { l with keys := none :: rest }
  | _ => .ok l

/-- Notes that the next token may begin a key. -/
def saveKey (l : Lexer) : Except Fault Lexer :=
  if l.keyAllowed then do
    let l ← l.dropKey
    let k : PendingKey :=
      { number := l.count
        required := !l.inFlow && l.indent == (l.cursor.column : Int)
        index := l.cursor.index, line := l.cursor.line, column := l.cursor.column }
    return { l with keys := some k :: l.keys.drop 1 }
  else .ok l

/-- A key must stand on one line and within 1024 characters. -/
def isStale (c : Cursor) (k : PendingKey) : Bool := k.line ≠ c.line || c.index - k.index > 1024

/-- Gives up the pending keys that are too far behind. -/
def dropStaleKeys (l : Lexer) : Except Fault Lexer :=
  let stale (k : Option PendingKey) : Bool := k.any (isStale l.cursor)
  if l.keys.any fun k => stale k && k.any PendingKey.required then .error .malformed
  else .ok { l with keys := l.keys.map fun k => if stale k then none else k }

/-- Ends the block collections that begin beyond a column. -/
def closeBlocks (column : Int) : List Int → Lexer → Lexer
  | [], l => l
  | outer :: rest, l =>
    if l.indent > column then
      closeBlocks column rest ({ l with indent := outer, indents := rest }.push .blockEnd)
    else l

def unwind (l : Lexer) (column : Int) : Lexer :=
  if l.inFlow then l else closeBlocks column l.indents l

/-- Begins a block collection at a column beyond the innermost one. -/
def indentTo (l : Lexer) (column : Nat) : Option Lexer :=
  if l.indent < column then some { l with indents := l.indent :: l.indents, indent := column } else none

/-- Blanks, comments and line breaks are passed over; behind a break a key may begin, in a block. -/
def skipToToken : Nat → Lexer → Lexer
  | 0, l => l
  | fuel + 1, l =>
    let c := l.cursor.skipSpaces
    let c := if c.peek == some '#' then c.skipLine else c
    match c.lineBreak? with
    | some (_, c) => skipToToken fuel { l with cursor := c, keyAllowed := l.keyAllowed || !l.inFlow }
    | none => l.moveTo c

/-- A mark of one character. -/
def mark (l : Lexer) (t : Token) : Lexer := (l.push t).moveTo l.cursor.next

/-- Directives and dividers end every block and allow no key. -/
def outermost (l : Lexer) : Except Fault Lexer := do
  let l ← (l.unwind (-1)).dropKey
  return { l with keyAllowed := false }

def openFlow (l : Lexer) (t : Token) : Except Fault Lexer := do
  let l ← l.saveKey
  return { l with keys := none :: l.keys, keyAllowed := true }.mark t

def closeFlow (l : Lexer) (t : Token) : Except Fault Lexer := do
  let l ← l.dropKey
  if !l.inFlow then throw .malformed
  return { l with keys := l.keys.drop 1, keyAllowed := false }.mark t

def flowEntry (l : Lexer) : Except Fault Lexer := do
  let l ← l.dropKey
  return { l with keyAllowed := true }.mark .flowEntry

/-- An item of a block sequence, or a question mark, may begin a collection at its column. -/
def beginBlock (l : Lexer) (collection : Token) : Except Fault Lexer :=
  if l.inFlow then .ok l
  else if !l.keyAllowed then .error .malformed
  else
    match l.indentTo l.cursor.column with
    | some l => .ok (l.push collection)
    | none => .ok l

def blockEntry (l : Lexer) : Except Fault Lexer := do
  let l ← l.beginBlock .blockSequence
  let l ← { l with keyAllowed := true }.dropKey
  return l.mark .blockEntry

def explicitKey (l : Lexer) : Except Fault Lexer := do
  let l ← l.beginBlock .blockMapping
  let l ← { l with keyAllowed := !l.inFlow }.dropKey
  return l.mark .key

/-- A colon turns the pending key of its level into a key. Without one it needs a place where a key could
begin. -/
def valueMark (l : Lexer) : Except Fault Lexer :=
  match l.keys with
  | some k :: rest =>
    let l := { l with keys := none :: rest, keyAllowed := false }
    let l := match (if l.inFlow then none else l.indentTo k.column) with
      | some l => l.insertAt k.number [.blockMapping, .key]
      | none => l.insertAt k.number [.key]
    .ok (l.mark .value)
  | _ => do
    let l ← l.beginBlock .blockMapping
    let l ← { l with keyAllowed := !l.inFlow }.dropKey
    return l.mark .value

/-- A token that may begin a key and behind which none may begin. -/
def keyLike (l : Lexer) (scan : Cursor → Except Fault (Token × Cursor)) : Except Fault Lexer := do
  let l ← l.saveKey
  let (t, c) ← scan l.cursor
  return ({ l with keyAllowed := false }.push t).moveTo c

def quotedScalar (fuel : Nat) (double : Bool) (l : Lexer) : Except Fault Lexer :=
  l.keyLike fun c => do
    let (text, c) ← Scalar.quoted double fuel c.next
    return (.scalar text false, c)

def plainScalar (fuel : Nat) (l : Lexer) : Except Fault Lexer := do
  let l ← l.saveKey
  let (text, c, crossed) := Scalar.plain l.inFlow (l.indent + 1) fuel [] false l.cursor
  return ({ l with keyAllowed := crossed }.push (.scalar text true)).moveTo c

def blockScalar (fuel : Nat) (folding : Bool) (l : Lexer) : Except Fault Lexer := do
  let l ← { l with keyAllowed := true }.dropKey
  let (text, c) ← Scalar.block folding l.indent fuel l.cursor.next
  return (l.push (.scalar text false)).moveTo c

/-- Characters that no plain scalar begins with, save a few that do before a character that is not white. -/
def beginsPlain (l : Lexer) (ch : Char) : Bool :=
  !(isWhite ch || "-?:,[]\x7b\x7d#&*!|>'\"%@`".toList.contains ch)
    || (!whiteOrEnd (l.cursor.peekAt 1) && (ch == '-' || (!l.inFlow && (ch == '?' || ch == ':'))))

/-- Reads the token ahead, a blank or break not being there. -/
def token (fuel : Nat) (l : Lexer) : Except Fault Lexer :=
  let c := l.cursor
  let bare := whiteOrEnd (c.peekAt 1)
  match c.peek with
  | none => do
    let l ← l.outermost
    return { l.push .streamEnd with done := true }
  | some ch =>
    if ch == '%' && c.column == 0 then do
      let l ← l.outermost
      let (d, c) ← directive fuel l.cursor.next
      return (l.push (.directive d)).moveTo c
    else if c.column == 0 && c.divides '-' then do
      let l ← l.outermost
      return (l.push .documentStart).moveTo (c.skip 3)
    else if c.column == 0 && c.divides '.' then do
      let l ← l.outermost
      return (l.push .documentEnd).moveTo (c.skip 3)
    else if ch == '[' then l.openFlow .flowSequence
    else if ch == '{' then l.openFlow .flowMapping
    else if ch == ']' then l.closeFlow .flowSequenceEnd
    else if ch == '}' then l.closeFlow .flowMappingEnd
    else if ch == ',' then l.flowEntry
    else if ch == '-' && bare then l.blockEntry
    else if ch == '?' && (l.inFlow || bare) then l.explicitKey
    else if ch == ':' && (l.inFlow || bare) then l.valueMark
    else if ch == '*' then
      l.keyLike fun c => (anchorName c.next).map fun (n, c) => (.alias n, c)
    else if ch == '&' then
      l.keyLike fun c => (anchorName c.next).map fun (n, c) => (.anchor n, c)
    else if ch == '!' then
      l.keyLike fun c => (tagName fuel c).map fun (n, c) => (.tag n, c)
    else if ch == '|' && !l.inFlow then l.blockScalar fuel false
    else if ch == '>' && !l.inFlow then l.blockScalar fuel true
    else if ch == '\x27' then l.quotedScalar fuel false
    else if ch == '"' then l.quotedScalar fuel true
    else if l.beginsPlain ch then l.plainScalar fuel
    else .error .malformed

/-- Passes over what divides tokens, ends blocks by their indentation, and reads one token. -/
def step (l : Lexer) : Except Fault Lexer := do
  let l ← (skipToToken l.size l).dropStaleKeys
  (l.unwind l.cursor.column).token l.size

/-- The least number of a token that may begin a key. -/
def firstKey (l : Lexer) : Option Nat :=
  l.keys.foldl (fun least k =>
    match least, k with
    | some n, some k => some (min n k.number)
    | none, some k => some k.number
    | least, none => least) none

/-- Reads on until there is a token that surely begins no key. -/
def fill : Nat → Lexer → Except Fault Lexer
  | 0, l => .ok l
  | fuel + 1, l =>
    if l.done then .ok l
    else if l.taken = l.count then do fill fuel (← l.step)
    else do
      let l ← l.dropStaleKeys
      if l.firstKey = some l.taken then fill fuel (← l.step) else return l

/-- The next token, and the lexer that stands before it. -/
def ahead (l : Lexer) : Except Fault (Token × Lexer) := do
  let l ← fill (l.size + 2) l
  match l.ready with
  | t :: _ => return (t, l)
  | [] =>
    match l.recent.reverse with
    | t :: ts => return (t, { l with ready := t :: ts, recent := [] })
    | [] => throw .malformed

/-- Hands out the next token, which has been looked at. -/
def next (l : Lexer) : Lexer := { l with ready := l.ready.drop 1, taken := l.taken + 1 }

/-- Stands before the first token of a text. -/
def ofChars (cs : List Char) : Lexer :=
  let start : Cursor := { rest := cs }
  { cursor := if start.peek == some '\uFEFF' then start.next else start, size := cs.length + 1 }

end Lexer

end CommentStyle.Yaml
