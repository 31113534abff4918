import CommentStyle.Yaml.Cursor
import CommentStyle.Yaml.Fault

/-!
# The text of scalars

Quoted, plain and block scalars may run over several lines. A single line break inside a quoted or plain
scalar folds to a blank, and of several the first is dropped; the separators of lines and paragraphs are
kept. Block scalars keep their lines or fold them, and the mark behind their indicator says what becomes of
the breaks at the end. Each scanner starts behind the scalar's indicator and returns the text and the place
behind the scalar.
-/

namespace CommentStyle.Yaml.Scalar

/-- How a line break and the empty lines after it read inside a folded text. -/
def folded (first : Char) (breaks : List Char) : List Char :=
  if first ≠ '\n' then first :: breaks
  else if breaks.isEmpty then [' ']
  else breaks

/-! ## Quoted scalars -/

/-- The line breaks of empty lines, with the blanks around them passed over. -/
def quotedBreaks : Nat → Cursor → Except Fault (List Char × Cursor)
  | 0, c => .ok ([], c)
  | fuel + 1, c =>
    if c.atDivider then .error .malformed
    else
      let c := c.skipWhile isSpace
      match c.lineBreak? with
      | none => .ok ([], c)
      | some (b, c) => (quotedBreaks fuel c).map fun (bs, c) => (b :: bs, c)

/-- The character that a one-letter escape stands for. -/
def escaped? (ch : Char) : Option Char :=
  match ch with
  | '0' => some '\x00'
  | 'a' => some '\x07'
  | 'b' => some '\x08'
  | 't' => some '\t'
  | '\t' => some '\t'
  | 'n' => some '\n'
  | 'v' => some '\x0b'
  | 'f' => some '\x0c'
  | 'r' => some '\r'
  | 'e' => some '\x1b'
  | ' ' => some ' '
  | '"' => some '"'
  | '\\' => some '\\'
  | '/' => some '/'
  | 'N' => some '\u0085'
  | '_' => some '\u00A0'
  | 'L' => some '\u2028'
  | 'P' => some '\u2029'
  | _ => none

/-- How many hexadecimal digits follow the escape letter. -/
def escapeWidth? (ch : Char) : Option Nat :=
  if ch == 'x' then some 2 else if ch == 'u' then some 4 else if ch == 'U' then some 8 else none

/-- The character of a hexadecimal escape; a surrogate has none and is replaced. -/
def codeChar (n : Nat) : Except Fault Char :=
  if n > 0x7FFFFFFF then .error (.unmade (.codePoint true))
  else if n > 0x10FFFF then .error (.unmade (.codePoint false))
  else if 0xD800 ≤ n ∧ n ≤ 0xDFFF then .ok '\uFFFD'
  else .ok (Char.ofNat n)

def isHexDigit (ch : Char) : Bool :=
  ('0' ≤ ch && ch ≤ '9') || ('a' ≤ ch && ch ≤ 'f') || ('A' ≤ ch && ch ≤ 'F')

/-- An escape of a double quoted scalar, the cursor standing behind the backslash. -/
def escape (fuel : Nat) (c : Cursor) : Except Fault (List Char × Cursor) :=
  match c.peek with
  | none => .error .malformed
  | some ch =>
    match escaped? ch, escapeWidth? ch with
    | some d, _ => .ok ([d], c.next)
    | none, some width =>
      let digits := c.next.rest.take width
      if digits.length = width && digits.all isHexDigit then
        let n := Number.ofDigits 16 (digits.filterMap (Number.digit? 16))
        (codeChar n).map fun d => ([d], c.next.skip width)
      else .error .malformed
    | none, none =>
      match c.lineBreak? with
      | some (_, c) => quotedBreaks fuel c
      | none => .error .malformed

/-- The text of a quoted scalar up to its closing quote. -/
def quoted (double : Bool) : Nat → Cursor → Except Fault (List Char × Cursor)
  | 0, _ => .error .malformed
  | fuel + 1, c => do
    match c.rest with
    | [] => .error .malformed
    | ch :: rest =>
      if isWhite ch then
        let (blanks, c) := c.span isSpace
        match c.lineBreak? with
        | some (b, c) =>
          let (breaks, c) ← quotedBreaks fuel c
          let (more, c) ← quoted double fuel c
          return (folded b breaks ++ more, c)
        | none =>
          let (more, c) ← quoted double fuel c
          return (blanks ++ more, c)
      else if double && ch == '"' then return ([], c.next)
      else if double && ch == '\\' then
        let (chars, c) ← escape fuel c.next
        let (more, c) ← quoted double fuel c
        return (chars ++ more, c)
      else if !double && ch == '\x27' then
        if rest.head? == some '\x27' then
          let (more, c) ← quoted double fuel (c.skip 2)
          return (ch :: more, c)
        else return ([], c.next)
      else
        let (more, c) ← quoted double fuel c.next
        return (ch :: more, c)

/-! ## Plain scalars -/

/-- The marks that end a plain scalar inside a flow collection. -/
def isFlowMark (ch : Char) : Bool := ch == ',' || ch == '[' || ch == ']' || ch == '{' || ch == '}'

/-- A plain scalar cannot go on with this character, `next` being the one after it. -/
def endsPlain (inFlow : Bool) (ch : Char) (next : Option Char) : Bool :=
  isWhite ch
    || (ch == ':' && (whiteOrEnd next || (inFlow && next.any isFlowMark)))
    || (inFlow && (isFlowMark ch || ch == '?'))

/-- The unbroken run of a plain scalar's characters ahead. -/
def plainRun (inFlow : Bool) : List Char → List Char
  | [] => []
  | ch :: rest => if endsPlain inFlow ch rest.head? then [] else ch :: plainRun inFlow rest

/-- The breaks and blanks after the first break of a gap; none if the text of the scalar ends at a line that
divides documents. -/
def plainBreaks : Nat → Cursor → Option (List Char) × Cursor
  | 0, c => (some [], c)
  | fuel + 1, c =>
    if c.peek == some ' ' then plainBreaks fuel c.next
    else
      match c.lineBreak? with
      | none => (some [], c)
      | some (b, c) =>
        if c.atDivider then (none, c)
        else
          let (breaks, c) := plainBreaks fuel c
          (breaks.map (b :: ·), c)

/-- What lies between two runs of a plain scalar. -/
structure Gap where
  /-- How the gap reads; none if the scalar cannot go on. -/
  text : Option (List Char)
  after : Cursor
  crossesLine : Bool

def plainGap (fuel : Nat) (c : Cursor) : Gap :=
  let (blanks, c) := c.span (· == ' ')
  match c.lineBreak? with
  | none => ⟨if blanks.isEmpty then none else some blanks, c, false⟩
  | some (b, c) =>
    if c.atDivider then ⟨none, c, true⟩
    else
      let (breaks, c) := plainBreaks fuel c
      ⟨breaks.map (folded b), c, true⟩

/-- A plain scalar: its text, the place behind it, and whether a line break was passed since its last
character. `gap` is what was read before this place and belongs to the text if the scalar goes on. -/
def plain (inFlow : Bool) (indent : Int) : Nat → List Char → Bool → Cursor → List Char × Cursor × Bool
  | 0, _, crossed, c => ([], c, crossed)
  | fuel + 1, gap, crossed, c =>
    let run := plainRun inFlow c.rest
    if c.peek == some '#' || run.isEmpty then ([], c, crossed)
    else
      let g := plainGap fuel (c.skip run.length)
      let stops := g.after.peek == some '#' || (!inFlow && g.after.column < indent)
      match g.text with
      | some text =>
        if stops then (gap ++ run, g.after, g.crossesLine)
        else
          let (more, c, crossed) := plain inFlow indent fuel text g.crossesLine g.after
          (gap ++ run ++ more, c, crossed)
      | none => (gap ++ run, g.after, g.crossesLine)

/-! ## Block scalars -/

/-- What becomes of the line breaks at the end of a block scalar. -/
inductive Chomping where
  | strip
  | clip
  | keep
deriving DecidableEq, Repr

def chompingMark? (ch : Char) : Option Chomping :=
  if ch == '+' then some .keep else if ch == '-' then some .strip else none

/-- An explicit indentation, from 1 to 9. -/
def incrementMark? (ch : Char) : Option Nat :=
  if '0' ≤ ch ∧ ch ≤ '9' then some (ch.toNat - '0'.toNat) else none

/-- The marks behind a block scalar's indicator, in either order. -/
def blockMarks (c : Cursor) : Except Fault (Chomping × Option Nat × Cursor) := do
  let (chomping, c) := match c.peek.bind chompingMark? with
    | some m => (some m, c.next)
    | none => (none, c)
  let (increment, c) := match c.peek.bind incrementMark? with
    | some n => (some n, c.next)
    | none => (none, c)
  let (chomping, c) := match chomping, increment, c.peek.bind chompingMark? with
    | none, some _, some m => (some m, c.next)
    | chomping, _, _ => (chomping, c)
  if increment = some 0 then throw .malformed
  if !spaceBreakOrEnd c.peek then throw .malformed
  return (chomping.getD .clip, increment, c)

/-- The rest of a line may hold blanks and a comment only. -/
def endOfLine (c : Cursor) : Except Fault Cursor :=
  let c := c.skipSpaces
  let c := if c.peek == some '#' then c.skipLine else c
  match c.peek, c.lineBreak? with
  | none, _ => .ok c
  | some _, some (_, c) => .ok c
  | some _, none => .error .malformed

/-- The breaks before the first line of text, and the greatest column that blanks reach. -/
def blockLead : Nat → Nat → Cursor → List Char × Nat × Cursor
  | 0, widest, c => ([], widest, c)
  | fuel + 1, widest, c =>
    if c.peek == some ' ' then blockLead fuel (max widest c.next.column) c.next
    else
      match c.lineBreak? with
      | none => ([], widest, c)
      | some (b, c) =>
        let (breaks, widest, c) := blockLead fuel widest c
        (b :: breaks, widest, c)

/-- Blanks up to the indentation are passed over. -/
def skipIndent (indent : Nat) (c : Cursor) : Cursor :=
  let blanks := c.rest.takeWhile (· == ' ')
  c.skip (min blanks.length (indent - c.column))

/-- The breaks of empty lines, up to a line that has text or less indentation. -/
def blockBreaks (indent : Nat) : Nat → Cursor → List Char × Cursor
  | 0, c => ([], c)
  | fuel + 1, c =>
    let c := skipIndent indent c
    match c.lineBreak? with
    | none => ([], c)
    | some (b, c) =>
      let (breaks, c) := blockBreaks indent fuel c
      (b :: breaks, c)

/-- The lines of a block scalar. `breaks` are the empty lines before this place. -/
def blockLines (folding : Bool) (chomping : Chomping) (indent : Nat) :
    Nat → List Char → Cursor → List Char × Cursor
  | 0, _, c => ([], c)
  | fuel + 1, breaks, c =>
    let (line, c') := c.span fun ch => !isBreak ch
    let begins := c.peek.any fun ch => !isSpace ch
    let (b, c') := match c'.lineBreak? with
      | some (b, c') => ([b], c')
      | none => ([], c')
    let (breaks', c') := blockBreaks indent fuel c'
    if c'.column = indent ∧ c'.peek.isSome then
      let joint :=
        if folding && b == ['\n'] && begins && c'.peek.any fun ch => !isSpace ch then
          if breaks'.isEmpty then [' '] else []
        else b
      let (more, c') := blockLines folding chomping indent fuel breaks' c'
      (breaks ++ line ++ joint ++ more, c')
    else
      let tail := match chomping with
        | .strip => []
        | .clip => b
        | .keep => b ++ breaks'
      (breaks ++ line ++ tail, c')

/-- A block scalar inside a block collection at column `parent`, which is -1 outside of all. -/
def block (folding : Bool) (parent : Int) (fuel : Nat) (c : Cursor) :
    Except Fault (List Char × Cursor) := do
  let (chomping, increment, c) ← blockMarks c
  let c ← endOfLine c
  let least := (max (parent + 1) 1).toNat
  let (indent, breaks, c) := match increment with
    | some n =>
      let indent := least + n - 1
      let (breaks, c) := blockBreaks indent fuel c
      (indent, breaks, c)
    | none =>
      let (breaks, widest, c) := blockLead fuel 0 c
      (max least widest, breaks, c)
  if c.column = indent ∧ c.peek.isSome then
    return blockLines folding chomping indent fuel breaks c
  else
    return (if chomping = .keep then breaks else [], c)

end CommentStyle.Yaml.Scalar
