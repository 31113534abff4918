/-!
# A place in a YAML text

The characters ahead, with the index, line and column reached. A carriage return and line feed count as one
line break, and the byte order mark takes no column.
-/

namespace CommentStyle.Yaml

/-- Characters a YAML text may hold. -/
def isAllowed (c : Char) : Bool :=
  let n := c.toNat
  n == 0x9 || n == 0xA || n == 0xD || (0x20 ≤ n && n ≤ 0x7E) || n == 0x85
    || (0xA0 ≤ n && n ≤ 0xD7FF) || (0xE000 ≤ n && n ≤ 0xFFFD) || (0x10000 ≤ n && n ≤ 0x10FFFF)

/-- Ends a line. -/
def isBreak (c : Char) : Bool :=
  c == '\n' || c == '\r' || c == '\u0085' || c == '\u2028' || c == '\u2029'

/-- Ends a line or a word. -/
def isWhite (c : Char) : Bool := c == ' ' || c == '\t' || isBreak c

def isSpace (c : Char) : Bool := c == ' ' || c == '\t'

/-- A character that ends a line or a word, or the end of the text. -/
def whiteOrEnd : Option Char → Bool
  | none => true
  | some c => isWhite c

/-- As `whiteOrEnd`, but a tab does not do. -/
def spaceBreakOrEnd : Option Char → Bool
  | none => true
  | some c => c == ' ' || isBreak c

structure Cursor where
  rest : List Char
  index : Nat := 0
  line : Nat := 0
  column : Nat := 0

namespace Cursor

def peek (c : Cursor) : Option Char := c.rest.head?

/-- The character `n` places ahead. -/
def peekAt (c : Cursor) (n : Nat) : Option Char := c.rest[n]?

def next (c : Cursor) : Cursor :=
  match c.rest with
  | [] => c
  | ch :: rest =>
    if isBreak ch && !(ch == '\r' && rest.head? == some '\n') then
      { rest, index := c.index + 1, line := c.line + 1, column := 0 }
    else
      { rest, index := c.index + 1, line := c.line
        column := if ch == '\uFEFF' then c.column else c.column + 1 }

def skip (c : Cursor) : Nat → Cursor
  | 0 => c
  | n + 1 => c.next.skip n

/-- The characters ahead that satisfy a condition, and the place after them. -/
def span (p : Char → Bool) (c : Cursor) : List Char × Cursor :=
  let run := c.rest.takeWhile p
  (run, c.skip run.length)

def skipWhile (p : Char → Bool) (c : Cursor) : Cursor := (c.span p).2

def skipSpaces (c : Cursor) : Cursor := c.skipWhile (· == ' ')

/-- The rest of the line, its break excluded, is passed over. -/
def skipLine (c : Cursor) : Cursor := c.skipWhile fun ch => !isBreak ch

/-- The line break ahead and the place after it. The breaks of ASCII and the next-line character all read
as a line feed; the separators of lines and paragraphs stay what they are. -/
def lineBreak? (c : Cursor) : Option (Char × Cursor) :=
  match c.rest with
  | '\r' :: '\n' :: _ => some ('\n', c.skip 2)
  | ch :: _ =>
    if ch == '\u2028' || ch == '\u2029' then some (ch, c.next)
    else if isBreak ch then some ('\n', c.next)
    else none
  | [] => none

/-- Three equal marks and then white or the end: a line that divides documents. -/
def divides (mark : Char) (c : Cursor) : Bool :=
  match c.rest with
  | x :: y :: z :: rest => x == mark && y == mark && z == mark && whiteOrEnd rest.head?
  | _ => false

def atDivider (c : Cursor) : Bool := c.divides '-' || c.divides '.'

end Cursor

end CommentStyle.Yaml
