import CommentStyle.Text.Printable

/-!
# Quoted texts

A text shown inside a message stands between quotes: single ones, unless it holds a single quote and no
double one. The backslash, the quote in use, line feed, carriage return and tab are escaped by a letter or
by themselves, and any other character without a visible form by its code point in lowercase hexadecimal.
-/

namespace CommentStyle.Text

/-- The digits of a number in base 16, with zeros in front up to the width. -/
def hex (width n : Nat) : List Char := (Nat.toDigits 16 n).leftpad width '0'

def quoteMark (text : List Char) : Char :=
  if text.contains '\x27' && !text.contains '"' then '"' else '\x27'

def escapeIn (quote c : Char) : List Char :=
  if c == quote || c == '\\' then ['\\', c]
  else if c == '\n' then ['\\', 'n']
  else if c == '\r' then ['\\', 'r']
  else if c == '\t' then ['\\', 't']
  else if isPrintable c then [c]
  else if c.toNat < 0x100 then '\\' :: 'x' :: hex 2 c.toNat
  else if c.toNat < 0x10000 then '\\' :: 'u' :: hex 4 c.toNat
  else '\\' :: 'U' :: hex 8 c.toNat

def quotedChars (text : List Char) : List Char :=
  let quote := quoteMark text
  quote :: text.flatMap (escapeIn quote) ++ [quote]

def quoted (text : String) : String := String.ofList (quotedChars text.toList)

/-- An octet string: as a quoted text, with every octet outside the visible ASCII ones escaped. -/
def quotedOctets (octets : List UInt8) : String :=
  let chars := octets.map fun o => Char.ofNat o.toNat
  let quote := quoteMark chars
  let escape (c : Char) : List Char :=
    if c == quote || c == '\\' then ['\\', c]
    else if c == '\n' then ['\\', 'n']
    else if c == '\r' then ['\\', 'r']
    else if c == '\t' then ['\\', 't']
    else if ' ' ≤ c && c ≤ '~' then [c]
    else '\\' :: 'x' :: hex 2 c.toNat
  String.ofList ('b' :: quote :: chars.flatMap escape ++ [quote])

end CommentStyle.Text
