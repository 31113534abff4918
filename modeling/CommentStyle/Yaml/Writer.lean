import CommentStyle.Text.Quoted
import CommentStyle.Yaml.Tag

/-!
# Writing texts as YAML

A text is written plainly where it reads back as itself that way, else in single quotes, and in double
quotes, with escapes, where only those can hold it. Lines are folded at a blank once they pass the width of
80 characters; the next line goes on at the indentation of the scalar.
-/

namespace CommentStyle.Yaml.Writer

/-- Lines longer than this are folded. -/
def width : Nat := 80

/-- The indentation of lines that go on with a scalar. -/
def margin : Nat := 4

def isBreak (c : Char) : Bool := c == '\n' || c == '\u0085' || c == '\u2028' || c == '\u2029'

def isWhite (c : Char) : Bool := isBreak c || c == '\x00' || c == ' ' || c == '\t' || c == '\r'

def whiteOrEnd (c : Option Char) : Bool := c.all isWhite

/-- Characters that only double quotes can hold. -/
def isSpecial (c : Char) : Bool :=
  let n := c.toNat
  !(c == '\n' || (0x20 ≤ n && n ≤ 0x7E) || n == 0x85 || (0xA0 ≤ n && n ≤ 0xD7FF)
    || (0xE000 ≤ n && n ≤ 0xFFFD) || (0x10000 ≤ n && n ≤ 0x10FFFE)) || c == '\uFEFF'

/-! ## The choice of style -/

/-- No character, read behind `before`, would end a plain scalar or begin a comment. -/
def plainBody (before : Char) : List Char → Bool
  | [] => true
  | c :: rest =>
    !(c == ':' && whiteOrEnd rest.head?) && !(c == '#' && isWhite before) && plainBody c rest

/-- The first character would not be taken for an indicator. -/
def plainHead (text : List Char) : Bool :=
  match text with
  | [] => false
  | c :: rest =>
    !("#,[]\x7b\x7d&*!|>'\"%@`".toList.contains c)
      && !((c == '?' || c == ':' || c == '-') && whiteOrEnd rest.head?)
      && plainBody c rest

def isPlain (text : List Char) : Bool :=
  plainHead text && Tag.ofPlain text == .str
    && !text.any (fun c => isBreak c || isSpecial c)
    && text.head? != some ' ' && text.getLast? != some ' '
    && !(['-', '-', '-'].isPrefixOf text) && !(['.', '.', '.'].isPrefixOf text)

/-- A blank stands beside a line break. -/
def blankAtBreak : List Char → Bool
  | c :: d :: rest =>
    (c == ' ' && isBreak d) || (isBreak c && d == ' ') || blankAtBreak (d :: rest)
  | _ => false

def isSingleQuotable (text : List Char) : Bool := !text.any isSpecial && !blankAtBreak text

/-! ## Plain and single quoted texts -/

def newLine : List Char := '\n' :: List.replicate margin ' '

/-- Writes a plain text, `column` characters standing on the line. -/
def plain (column : Nat) (afterBlank : Bool) : List Char → List Char
  | [] => []
  | c :: rest =>
    if c == ' ' && !afterBlank && rest.head? != some ' ' && column > width then
      newLine ++ plain margin true rest
    else c :: plain (column + 1) (c == ' ') rest

/-- What the character before leaves behind in a single quoted text. -/
inductive Before where
  | opening
  | blank
  | lineBreak
  | other
deriving DecidableEq, Repr

/-- Writes the inside of a single quoted text. A break that begins with a line feed is written one line feed
longer, since reading takes one away; the text goes on at the margin. -/
def single (column : Nat) (before : Before) : List Char → List Char
  | [] => if before = .lineBreak then List.replicate margin ' ' else []
  | c :: rest =>
    if isBreak c then
      if before ≠ .lineBreak && c == '\n' then '\n' :: '\n' :: single 0 .lineBreak rest
      else c :: single 0 .lineBreak rest
    else
      let lead := if before = .lineBreak then List.replicate margin ' ' else []
      let column := if before = .lineBreak then margin else column
      if c == ' ' then
        if (before = .other || before = .lineBreak) && !rest.isEmpty && rest.head? != some ' '
            && column > width then
          lead ++ newLine ++ single margin .blank rest
        else lead ++ c :: single (column + 1) .blank rest
      else if c == '\x27' then lead ++ c :: c :: single (column + 2) .other rest
      else lead ++ c :: single (column + 1) .other rest

/-! ## Double quoted texts -/

/-- Written as it is inside double quotes. -/
def isOrdinary (c : Char) : Bool :=
  let n := c.toNat
  ((0x20 ≤ n && n ≤ 0x7E) || (0xA0 ≤ n && n ≤ 0xD7FF) || (0xE000 ≤ n && n ≤ 0xFFFD))
    && !(c == '"' || c == '\\' || c == '\u2028' || c == '\u2029' || c == '\uFEFF')

def upperHex (digits n : Nat) : List Char := (Text.hex digits n).map Char.toUpper

/-- Characters that are escaped by a letter. -/
def escapeLetters : List (Char × Char) :=
  [('\x00', '0'), ('\x07', 'a'), ('\x08', 'b'), ('\t', 't'), ('\n', 'n'), ('\x0b', 'v'), ('\x0c', 'f'),
    ('\r', 'r'), ('\x1b', 'e'), ('"', '"'), ('\\', '\\'), ('\u0085', 'N'), ('\u2028', 'L'), ('\u2029', 'P')]

def escape (c : Char) : List Char :=
  match escapeLetters.lookup c with
  | some l => ['\\', l]
  | none =>
    if c.toNat ≤ 0xFF then '\\' :: 'x' :: upperHex 2 c.toNat
    else if c.toNat ≤ 0xFFFF then '\\' :: 'u' :: upperHex 4 c.toNat
    else '\\' :: 'U' :: upperHex 8 c.toNat

/-- Ends the line with a backslash; a blank that begins the next line needs one before it. -/
def splitLine (next : Option Char) : List Char × Nat :=
  if next == some ' ' then ('\\' :: newLine ++ ['\\'], margin + 1) else ('\\' :: newLine, margin)

/-- Writes the inside of a double quoted text. Lines are split behind an escape, or before a blank or the
character that follows an escape, but never at the first or the last character. -/
def double (column : Nat) (first afterEscape : Bool) : List Char → List Char
  | [] => []
  | c :: rest =>
    let inner := !first && !rest.isEmpty
    if isOrdinary c then
      if inner && (c == ' ' || afterEscape) && column > width then
        let (split, column) := splitLine (some c)
        split ++ c :: double (column + 1) false false rest
      else c :: double (column + 1) false false rest
    else
      let written := escape c
      let column := column + written.length
      if inner && column > width + 1 then
        let (split, column) := splitLine rest.head?
        written ++ split ++ double column false true rest
      else written ++ double column false true rest

/-- A text as the value of an entry, `column` characters standing on its line. -/
def text (column : Nat) (t : List Char) : List Char :=
  if isPlain t then plain column false t
  else if isSingleQuotable t then '\x27' :: single (column + 1) .opening t ++ ['\x27']
  else '"' :: double (column + 1) true false t ++ ['"']

end CommentStyle.Yaml.Writer
