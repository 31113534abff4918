import CommentStyle.Text.Names
import CommentStyle.Text.Printable
import CommentStyle.Text.Quoted
import CommentStyle.Text.Utf8

/-!
# Tokens of literals

A literal is divided into names, numbers, texts and signs. Brackets have to match; inside of them line ends
do not count. A text that cannot be divided ends in a token that says why.
-/

namespace CommentStyle.Console.Literal

inductive TokenKind where
  | name
  | number
  | text
  | sign
  | lineEnd
  | indent
  | dedent
  | finish
  /-- The text is at fault here, wherever else it may be. -/
  | broken
  /-- The text ends too early, or goes on where it may not. -/
  | unfinished
deriving DecidableEq, Repr, Inhabited

structure Token where
  kind : TokenKind
  /-- The token as written, or what is wrong. -/
  text : List Char
  line : Nat
  /-- The number of brackets open behind the token. -/
  level : Nat := 0
  /-- The text was known to end with this token. -/
  last : Bool := false
deriving DecidableEq, Repr, Inhabited

/-! ## Numbers -/

def isDigit (c : Char) : Bool := '0' ≤ c && c ≤ '9'

def isHexDigit (c : Char) : Bool := isDigit c || ('a' ≤ c && c ≤ 'f') || ('A' ≤ c && c ≤ 'F')

/-- A character that may be part of a name; which others are is judged later. -/
def mayContinueName (c : Char) : Bool :=
  isDigit c || ('a' ≤ c && c ≤ 'z') || ('A' ≤ c && c ≤ 'Z') || c == '_' || 128 ≤ c.toNat

def mayBeginName (c : Char) : Bool := mayContinueName c && !isDigit c

def startsWith (word text : List Char) : Bool := word.isPrefixOf text

/-- The text begins with a word and the word ends there. -/
def beginsWord (word text : List Char) : Bool :=
  startsWith word text && !((text.drop word.length).head?.any mayContinueName)

/-- Words that may follow a number without a blank. -/
def mayFollowNumber (text : List Char) : Bool :=
  beginsWord "and".toList text || beginsWord "else".toList text || beginsWord "for".toList text
    || startsWith "if".toList text || startsWith "in".toList text || startsWith "is".toList text
    || beginsWord "or".toList text || beginsWord "not".toList text

def invalidNumber (kind : String) : String := "invalid " ++ kind ++ " literal"

/-- A number ends where no name goes on, unless with a word that may follow. -/
def endOfNumber (kind : String) (rest : List Char) : Except String (List Char) :=
  if !mayFollowNumber rest && rest.head?.any (fun c => mayContinueName c && c.toNat < 128) then
    .error (invalidNumber kind)
  else .ok rest

/-- What follows the digits of a decimal number, single underscores dividing them. -/
def decimalTail : List Char → Except String (List Char)
  | [] => .ok []
  | c :: rest =>
    if isDigit c then decimalTail rest
    else if c = '_' then if rest.head?.any isDigit then decimalTail rest else .error (invalidNumber "decimal")
    else .ok (c :: rest)

/-- Where a number to another base is: before a group of digits, behind an underscore, or behind a digit. -/
inductive RadixPlace where
  | before
  | divided
  | within
deriving DecidableEq, Repr

/-- What follows the digits of a number to another base, or the character that is none. -/
def radixTail (digit : Char → Bool) : RadixPlace → List Char → Except (Option Char) (List Char)
  | place, [] => if place = .within then .ok [] else .error none
  | place, c :: rest =>
    if digit c then radixTail digit .within rest
    else if c = '_' && place ≠ .divided then radixTail digit .divided rest
    else if place = .within then .ok (c :: rest) else .error (some c)

def radixNumber (kind : String) (digit : Char → Bool) (cs : List Char) : Except String (List Char) :=
  let wrongDigit (c : Char) : String := "invalid digit '" ++ String.ofList [c] ++ "' in " ++ kind ++ " literal"
  match radixTail digit .before cs with
  | .error found =>
    match found.filter isDigit with
    | some c => .error (wrongDigit c)
    | none => .error (invalidNumber kind)
  | .ok rest =>
    match rest.head?.filter isDigit with
    | some c => .error (wrongDigit c)
    | none => endOfNumber kind rest

def isJ (c : Char) : Bool := c == 'j' || c == 'J'

def isE (c : Char) : Bool := c == 'e' || c == 'E'

/-- The end of a number from behind its fraction on. -/
def ending (cs : List Char) : Except String (List Char) :=
  match cs with
  | c :: rest => if isJ c then endOfNumber "imaginary" rest else endOfNumber "decimal" cs
  | [] => .ok []

/-- The end of a number from its exponent on, if it has one. -/
def exponent (cs : List Char) : Except String (List Char) :=
  match cs with
  | c :: rest =>
    if isE c then
      match rest with
      | d :: more =>
        if isDigit d then decimalTail more >>= ending
        else if d = '+' || d = '-' then
          if more.head?.any isDigit then decimalTail more >>= ending else .error (invalidNumber "decimal")
        else endOfNumber "decimal" cs
      | [] => endOfNumber "decimal" cs
    else ending cs
  | [] => .ok []

/-- The end of a number from behind its point on. -/
def fraction (cs : List Char) : Except String (List Char) :=
  if cs.head?.any isDigit then decimalTail cs >>= exponent else exponent cs

/-- The end of a number from behind its whole part on. -/
def afterWhole (cs : List Char) : Except String (List Char) :=
  match cs with
  | '.' :: rest => fraction rest
  | _ => exponent cs

/-- What follows the zeros at the start of a number. -/
def zerosTail : List Char → Except String (List Char)
  | [] => .ok []
  | c :: rest =>
    if c = '0' then zerosTail rest
    else if c = '_' then if rest.head?.any isDigit then zerosTail rest else .error (invalidNumber "decimal")
    else .ok (c :: rest)

def leadingZeros : String :=
  "leading zeros in decimal integer literals are not permitted; use an 0o prefix for octal integers"

/-- A decimal number that begins with a zero has to be zero or to have a fraction. -/
def zeroNumber (cs : List Char) : Except String (List Char) := do
  let rest ← zerosTail cs
  if rest.head?.any isDigit then
    let rest ← decimalTail rest
    if rest.head?.any fun c => c == '.' || isE c || isJ c then afterWhole rest else .error leadingZeros
  else afterWhole rest

/-- What follows a number. -/
def numberEnd (cs : List Char) : Except String (List Char) :=
  match cs with
  | '0' :: rest =>
    match rest with
    | c :: more =>
      if c = 'x' || c = 'X' then radixNumber "hexadecimal" isHexDigit more
      else if c = 'o' || c = 'O' then radixNumber "octal" (fun c => '0' ≤ c && c ≤ '7') more
      else if c = 'b' || c = 'B' then radixNumber "binary" (fun c => c == '0' || c == '1') more
      else zeroNumber rest
    | [] => .ok []
  | '.' :: rest => fraction rest
  | _ :: rest => decimalTail rest >>= afterWhole
  | [] => .ok []

/-! ## Texts -/

/-- The letters before a text: of each kind at most one, bytes, formatted and plain excluding each other. -/
def isTextStart (letters : List Char) : Bool :=
  ["", "b", "u", "r", "f", "br", "rb", "fr", "rf"].contains (String.ofList (letters.map Char.toLower))

/-- What follows a text in single quotes, the opening quote having been read, and whether it ended. -/
def quoteEnd (quote : Char) : List Char → Option (List Char)
  | [] => none
  | '\n' :: _ => none
  | '\\' :: _ :: rest => quoteEnd quote rest
  | c :: rest => if c = quote then some rest else quoteEnd quote rest

/-- What follows a text in triple quotes, so many of the last three having been read. -/
def tripleEnd (quote : Char) (seen : Nat) : List Char → Option (List Char)
  | [] => none
  | '\\' :: rest =>
    match rest with
    | [] => none
    | _ :: rest => tripleEnd quote 0 rest
  | c :: rest =>
    if c = quote then if seen = 2 then some rest else tripleEnd quote (seen + 1) rest
    else tripleEnd quote 0 rest

/-- What follows a text that begins with a quote; where none ends it, whether it is in triple quotes. -/
def textEnd (cs : List Char) : Except Bool (List Char) :=
  match cs with
  | q :: rest =>
    if startsWith [q, q] rest then
      match tripleEnd q 0 (rest.drop 2) with
      | some rest => .ok rest
      | none => .error true
    else
      match quoteEnd q rest with
      | some rest => .ok rest
      | none => .error false
  | [] => .error false

/-! ## Signs -/

def longSigns : List (List Char) :=
  ["**=", "//=", "<<=", ">>=", "...", "!=", "%=", "&=", "**", "*=", "+=", "-=", "->", "//", "/=", ":=",
    "<<", "<=", "<>", "==", ">=", ">>", "@=", "^=", "|="].map String.toList

/-- The sign that a text begins with. -/
def signOf (cs : List Char) : List Char := (longSigns.find? (startsWith · cs)).getD (cs.take 1)

/-- A bracket that is open, and its line. -/
structure Bracket where
  char : Char
  line : Nat
deriving DecidableEq, Repr

def closes (opening closing : Char) : Bool :=
  (opening == '(' && closing == ')') || (opening == '[' && closing == ']')
    || (opening == '{' && closing == '}')

def neverClosed (b : Bracket) : String := "'" ++ String.ofList [b.char] ++ "' was never closed"

/-- More brackets than this are not opened inside each other. -/
def bracketLimit : Nat := 200

/-- The open brackets behind a sign, the last opened first. -/
def brackets (opened : List Bracket) (line : Nat) (c : Char) : Except String (List Bracket) :=
  if c == '(' || c == '[' || c == '{' then
    if opened.length < bracketLimit then .ok (⟨c, line⟩ :: opened) else .error "too many nested parentheses"
  else if c == ')' || c == ']' || c == '}' then
    match opened with
    | [] => .error ("unmatched '" ++ String.ofList [c] ++ "'")
    | b :: rest =>
      if closes b.char c then .ok rest
      else .error ("closing parenthesis '" ++ String.ofList [c] ++ "' does not match opening parenthesis '"
        ++ String.ofList [b.char] ++ "'" ++ if b.line = line then "" else " on line " ++ toString b.line)
  else .ok opened

def codePoint (c : Char) : String :=
  let digits := (Nat.toDigits 16 c.toNat).map Char.toUpper
  "U+" ++ String.ofList (List.replicate (4 - digits.length) '0' ++ digits)

/-- The first character that keeps a word from being a name. -/
def intruder? : List Char → Option Char
  | [] => none
  | c :: rest => if Text.beginsName c then rest.find? (!Text.continuesName ·) else some c

def intrusion (c : Char) : String :=
  if Text.isPrintable c then "invalid character '" ++ String.ofList [c] ++ "' (" ++ codePoint c ++ ")"
  else "invalid non-printable character " ++ codePoint c

/-! ## All tokens -/

def endTooEarly : String := "unexpected EOF while parsing"

def notContinued : String := "unexpected character after line continuation character"

/-- Where the dividing is. -/
structure Place where
  line : Nat := 1
  opened : List Bracket := []
  indents : List Nat := [0]
  /-- Nothing but blanks was on the line. -/
  blank : Bool := false

namespace Place

def token (p : Place) (kind : TokenKind) (text : List Char) (last : Bool := false) : Token :=
  { kind, text, line := p.line, level := p.opened.length, last }

def broken (p : Place) (reason : String) : List Token := [p.token .broken reason.toList]

/-- The text ends too early: inside a bracket, which is then at fault, or otherwise for a reason. -/
def unfinished (p : Place) (reason : String) : List Token :=
  match p.opened with
  | b :: _ => [{ p with line := b.line }.token .unfinished (neverClosed b).toList]
  | [] => [p.token .unfinished reason.toList]

end Place

def Place.notContinued (p : Place) : List Token := [p.token .unfinished Literal.notContinued.toList]

def isGap (c : Char) : Bool := c == ' ' || c == '\t' || c == '\x0c'

/-- The margin of a line: its column, the number of lines it was continued over, and what follows. The first
margin that was continued counts, unless it is empty. -/
def margin (column held lines : Nat) : List Char → Except String (Nat × Nat × List Char)
  | ' ' :: rest => margin (column + 1) held lines rest
  | '\t' :: rest => margin ((column / 8 + 1) * 8) held lines rest
  | '\x0c' :: rest => margin 0 held lines rest
  | '\\' :: rest =>
    match rest with
    | ['\n'] => .error endTooEarly
    | '\n' :: rest => margin column (if held = 0 then column else held) (lines + 1) rest
    | _ => .error notContinued
  | rest => .ok (if held = 0 then column else held, lines, rest)

/-- The indents behind a line that begins at a column, and the tokens for the change; nothing if the line
matches none of the indents around it. -/
def indentation (column : Nat) : List Nat → Option (List TokenKind × List Nat)
  | [] => none
  | n :: outer =>
    if column = n then some ([], n :: outer)
    else if n < column then some ([.indent], column :: n :: outer)
    else (indentation column outer).bind fun (kinds, indents) =>
      if kinds.contains .indent then none else some (.dedent :: kinds, indents)

/-- The start of a line: the tokens of its margin, and what follows. -/
def lineStart (p : Place) (cs : List Char) : Except (List Token) (List Token × Place × List Char) :=
  match margin 0 0 0 cs with
  | .error reason => .error (if reason = endTooEarly then p.unfinished reason else p.notContinued)
  | .ok (column, lines, rest) =>
    let p := { p with line := p.line + lines, blank := false }
    if rest.head?.any fun c => c == '#' || c == '\n' then .ok ([], { p with blank := true }, rest)
    else if p.opened ≠ [] then .ok ([], p, rest)
    else
      match indentation column p.indents with
      | some (kinds, indents) =>
        let p := { p with indents }
        .ok (kinds.map fun k => p.token k [], p, rest)
      | none => .error (p.unfinished "unindent does not match any outer indentation level")

/-- Divides a text from a place on. -/
def tokensFrom : Nat → Place → List Char → List Token
  | 0, p, _ => p.unfinished endTooEarly
  | fuel + 1, p, cs =>
    let nextLine (p : Place) (cs : List Char) : List Token :=
      match lineStart p cs with
      | .error ts => ts
      | .ok (ts, p, cs) => ts ++ tokensFrom fuel p cs
    let word (rest : List Char) : List Char := cs.take (cs.length - rest.length)
    match cs with
    | [] => if p.opened = [] then [p.token .finish []] else p.unfinished ""
    | c :: rest =>
      if isGap c then tokensFrom fuel p rest
      else if c = '#' then tokensFrom fuel p (rest.dropWhile (· ≠ '\n'))
      else if c = '\n' then
        let below := { p with line := p.line + 1 }
        if p.blank || p.opened ≠ [] then nextLine below rest
        else p.token .lineEnd [] :: nextLine below rest
      else if c = '\\' then
        match rest with
        | ['\n'] => p.unfinished endTooEarly
        | '\n' :: rest => tokensFrom fuel { p with line := p.line + 1 } rest
        | _ => p.notContinued
      else if isDigit c || (c = '.' && rest.head?.any isDigit) then
        match numberEnd cs with
        | .error reason => p.broken reason
        | .ok rest => p.token .number (word rest) rest.isEmpty :: tokensFrom fuel p rest
      else
        let letters := cs.takeWhile mayContinueName
        let afterName := cs.drop letters.length
        if isTextStart letters && afterName.head?.any fun c => c == '"' || c == '\x27' then
          match textEnd afterName with
          | .ok rest =>
            let text := word rest
            p.token .text text :: tokensFrom fuel { p with line := p.line + text.count '\n' } rest
          | .error triple =>
            let line := p.line + if triple then afterName.count '\n' else 0
            p.broken ("unterminated " ++ (if triple then "triple-quoted " else "")
              ++ "string literal (detected at line " ++ toString line ++ ")")
        else if mayBeginName c then
          match intruder? letters with
          | some c => p.broken (intrusion c)
          | none => p.token .name letters afterName.isEmpty :: tokensFrom fuel p afterName
        else
          let sign := signOf cs
          let rest := cs.drop sign.length
          match brackets p.opened p.line c with
          | .error reason => p.broken reason
          | .ok opened =>
            if !Text.isPrintable c then p.broken (intrusion c)
            else
              let p := { p with opened }
              p.token .sign sign (rest.isEmpty && sign ≠ ['.', '.', '.']) :: tokensFrom fuel p rest

/-- The tokens of a text. -/
def tokens (text : List Char) : List Token :=
  let cs := Text.unifyLineEnds text
  match lineStart {} cs with
  | .error ts => ts
  | .ok (ts, p, cs) => ts ++ tokensFrom (cs.length + 1) p cs

end CommentStyle.Console.Literal
