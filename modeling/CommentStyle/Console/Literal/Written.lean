import CommentStyle.Console.Literal.Grammar
import CommentStyle.Number.Word

/-!
# Numbers and texts as written

A whole number may be too long to be read. A text may hold escapes, which have to be complete; octets are
written in the first 128 characters alone. Texts that stand together make one.
-/

namespace CommentStyle.Console.Literal

def isWholeNumber (text : List Char) : Bool := text.all fun c => isDigit c || c == '_'

/-- A whole number may be too long to be read. -/
def numberFault : List Tree → Option String
  | [.leaf t] =>
    if isWholeNumber t.text then
      match Number.whole? 10 (t.text.filter (· ≠ '_')) with
      | .error f => some (f.message
          ++ " - Consider hexadecimal for huge integer literals to avoid decimal conversion limits.")
      | .ok _ => none
    else none
  | _ => none

/-- A text as written: the letters before it, and what is between its quotes. -/
structure Written where
  letters : List Char
  body : List Char

namespace Written

def ofText (text : List Char) : Written :=
  let letters := text.takeWhile mayContinueName
  let quoted := text.drop letters.length
  let quotes := match quoted with
    | a :: b :: c :: _ => if a = b && b = c && 6 ≤ quoted.length then 3 else 1
    | _ => 1
  { letters := letters.map Char.toLower, body := (quoted.drop quotes).take (quoted.length - 2 * quotes) }

def isOctets (w : Written) : Bool := w.letters.contains 'b'

def isRaw (w : Written) : Bool := w.letters.contains 'r'

def isFormatted (w : Written) : Bool := w.letters.contains 'f'

end Written

/-- The number of hexadecimal digits an escape takes. -/
def escapeDigits : Char → Option Nat
  | 'x' => some 2
  | 'u' => some 4
  | 'U' => some 8
  | _ => none

def truncated (c : Char) (digits : Nat) : String :=
  "truncated \\" ++ String.ofList (c :: List.replicate digits 'X') ++ " escape"

/-- What is wrong with an escape, given from behind the backslash, and how many characters of it are read
by then. -/
def escapeFault (cs : List Char) : Option (String × Nat) :=
  match cs with
  | [] => none
  | 'N' :: rest =>
    let name := (rest.drop 1).takeWhile (· ≠ '}')
    if rest.head? ≠ some '{' then some ("malformed \\N character escape", 1)
    else if (rest.drop (name.length + 1)).head? ≠ some '}' then
      some ("malformed \\N character escape", name.length + 2)
    else if name = [] then some ("malformed \\N character escape", 2)
    else none
  | c :: rest =>
    match escapeDigits c with
    | none => none
    | some n =>
      let digits := (rest.take n).takeWhile isHexDigit
      if digits.length < n then some (truncated c n, digits.length + 1)
      else if 0x10FFFF < digits.foldl (fun v d => v * 16 + (Number.digit? 16 d).getD 0) 0 then
        some ("illegal Unicode character", n + 1)
      else none

/-- Where a text that is decoded has its first wrong escape. Each character beyond the first 128 takes the
place of ten. -/
def textFault (position : Nat) : List Char → Option String
  | [] => none
  | '\\' :: rest =>
    match escapeFault rest with
    | some (reason, length) =>
      let extent := if length = 0 then "byte 0x5c in position " ++ toString position
        else "bytes in position " ++ toString position ++ "-" ++ toString (position + length)
      some ("(unicode error) 'unicodeescape' codec can't decode " ++ extent ++ ": " ++ reason)
    | none =>
      match rest with
      | c :: rest => textFault (position + if c.toNat < 128 then 2 else 16) rest
      | [] => none
  | c :: rest => textFault (position + if c.toNat < 128 then 1 else 10) rest

/-- Where octets have their first wrong escape. -/
def octetsFault (position : Nat) : List Char → Option String
  | [] => none
  | '\\' :: 'x' :: rest =>
    if 2 ≤ ((rest.take 2).takeWhile isHexDigit).length then octetsFault (position + 2) rest
    else some ("(value error) invalid \\x escape at position " ++ toString position)
  | '\\' :: _ :: rest => octetsFault (position + 2) rest
  | _ :: rest => octetsFault (position + 1) rest

def writtenFault (w : Written) : Option String :=
  if w.isOctets then
    if w.body.any fun c => 128 ≤ c.toNat then some "bytes can only contain ASCII literal characters"
    else if w.isRaw then none
    else octetsFault 0 w.body
  else if w.isRaw || w.isFormatted then none
  else textFault 0 w.body

/-- Texts that stand together are read in order, and have to be of one kind. -/
def textsFault (kind : Option Bool) : List Tree → Option String
  | .leaf t :: rest =>
    let w := Written.ofText t.text
    match writtenFault w with
    | some reason => some reason
    | none =>
      if kind.any (· ≠ w.isOctets) then some "cannot mix bytes and nonbytes literals"
      else textsFault (some w.isOctets) rest
  | _ => none

end CommentStyle.Console.Literal
