import CommentStyle.Text.Lowercase
import CommentStyle.Value
import CommentStyle.Yaml.Tag

/-!
# The values of scalars

Each scalar tag makes its kind of value of a text: numbers with underscores between their digits or to base
sixty, the words of truth, dates and moments, and octets in base 64.
-/

namespace CommentStyle.Yaml

namespace Scalar

/-- Without the underscores that divide digits. -/
def undivided (text : List Char) : List Char := text.filter (· ≠ '_')

/-- Parts between colons. -/
def colonParts (text : List Char) : List (List Char) := Text.splitAt (· = ':') text

/-- The sign of a number word, which must not be empty. -/
def signed (text : List Char) : Except Fault (Bool × List Char) :=
  match text with
  | [] => .error (.unmade .emptyNumber)
  | '-' :: rest => .ok (true, rest)
  | '+' :: rest => .ok (false, rest)
  | rest => .ok (false, rest)

def number {α : Type} (x : Except NumberFault α) : Except Fault α := x.mapError fun f => .unmade (.number f)

/-- A whole number: binary, octal or hexadecimal by its start, to base sixty with colons, else decimal. -/
def int (text : List Char) : Except Fault Int := do
  let (negative, body) ← signed (undivided text)
  let n ← match body with
    | [] => throw (.unmade .emptyNumber)
    | ['0'] => pure 0
    | '0' :: 'b' :: rest => number (Number.whole? 2 rest)
    | '0' :: 'x' :: rest => number (Number.whole? 16 rest)
    | '0' :: rest => number (Number.whole? 8 ('0' :: rest))
    | body =>
      if body.contains ':' then do
        let digits ← (colonParts body).mapM fun p => number (Number.whole? 10 p)
        pure (digits.foldl (fun n d => n * 60 + d) 0)
      else number (Number.whole? 10 body)
  return if negative then -n else n

/-- The sum of the parts of a number to base sixty, from the last part on. -/
def sixtieths : Nat → Binary64 → List Binary64 → Except Fault Binary64
  | _, sum, [] => .ok sum
  | power, sum, x :: xs =>
    match Binary64.ofInt (Nat.pow 60 power) with
    | .infinite _ => .error (.unmade .hugeSixtieth)
    | base => sixtieths (power + 1) (sum.add (x.mul base)) xs

/-- A number with a fraction. One word stands for what is not a number; where another word or a sum gives
that, it is one of its own, made at its node. -/
def float (place : Nat) (text : List Char) : Except Fault Value := do
  let (negative, body) ← signed (Text.lower (undivided text))
  if body = ['.', 'n', 'a', 'n'] then return .float .nan
  let x ← if body = ['.', 'i', 'n', 'f'] then pure (Binary64.infinite false)
    else if body.contains ':' then do
      let parts ← (colonParts body).mapM fun p => number (Number.real? p)
      sixtieths 0 (.zero false) parts.reverse
    else number (Number.real? body)
  match if negative then x.negate else x with
  | .nan => return .ownNan place
  | x => return .float x

def bool (text : List Char) : Except Fault Bool :=
  let word := String.ofList (Text.lower text)
  if word = "yes" ∨ word = "true" ∨ word = "on" then .ok true
  else if word = "no" ∨ word = "false" ∨ word = "off" then .ok false
  else .error (.unmade (.notTruthWord word))

def decimalNat (digits : List Char) : Nat := Number.ofDigits 10 (digits.filterMap (Number.digit? 10))

def onCalendar (x : Except CalendarFault Value) : Except Fault Value :=
  x.mapError fun f => .unmade (.calendar f)

/-- A date, or a moment with its microseconds and zone. -/
def timestamp (text : List Char) : Except Fault Value :=
  match Form.timestamp? (Form.withoutFinalBreak text) with
  | none => .error (.unmade .notTimestamp)
  | some parts =>
    let year := decimalNat parts.year
    let month := decimalNat parts.month
    let day := decimalNat parts.day
    match parts.clock with
    | none => onCalendar ((Date.make year month day).map .date)
    | some clock =>
      let micro := decimalNat ((clock.fraction.take 6).rightpad 6 '0')
      let zone := clock.zone.map fun (sign, hours, minutes) =>
        let ahead : Int := decimalNat hours * 60 + decimalNat minutes
        if sign = some '-' then -ahead else ahead
      onCalendar ((Moment.make year month day (decimalNat clock.hour) (decimalNat clock.minute)
        (decimalNat clock.second) micro zone).map .moment)

/-! ### Octets in base 64 -/

def sextet? (c : Char) : Option Nat :=
  if 'A' ≤ c ∧ c ≤ 'Z' then some (c.toNat - 'A'.toNat)
  else if 'a' ≤ c ∧ c ≤ 'z' then some (c.toNat - 'a'.toNat + 26)
  else if '0' ≤ c ∧ c ≤ '9' then some (c.toNat - '0'.toNat + 52)
  else if c = '+' then some 62
  else if c = '/' then some 63
  else none

/-- Octets from base 64. `filled` of the four places of a group are taken, the bits not yet written are in
`carry`, and `pads` padding marks were seen in a row. Other characters are passed over. A group that padding
completes ends the data, and data that ends inside a group is refused. -/
def octetsFrom (filled carry pads : Nat) : List Char → Option (List UInt8)
  | [] => if filled = 0 then some [] else none
  | c :: rest =>
    if c = '=' then
      if 2 ≤ filled then
        if 4 ≤ filled + pads + 1 then some [] else octetsFrom filled carry (pads + 1) rest
      else octetsFrom filled carry pads rest
    else
      match sextet? c with
      | none => octetsFrom filled carry pads rest
      | some s =>
        if filled = 0 then octetsFrom 1 s 0 rest
        else if filled = 1 then
          (octetsFrom 2 (s % 16) 0 rest).map ((carry * 4 + s / 16).toUInt8 :: ·)
        else if filled = 2 then
          (octetsFrom 3 (s % 4) 0 rest).map ((carry * 16 + s / 4).toUInt8 :: ·)
        else (octetsFrom 0 0 0 rest).map ((carry * 64 + s).toUInt8 :: ·)

def binary (text : List Char) : Except Fault (List UInt8) :=
  if text.all fun c => c.toNat < 0x80 then
    match octetsFrom 0 0 0 text with
    | some os => .ok os
    | none => .error .malformed
  else .error .malformed

/-- The value that a scalar tag makes of a text, at a node. -/
def content (place : Nat) (tag : Tag) (text : List Char) : Except Fault Value :=
  match tag with
  | .null => .ok .null
  | .bool => (bool text).map .bool
  | .int => (int text).map .int
  | .float => float place text
  | .str => .ok (.str (String.ofList text))
  | .binary => (binary text).map .octets
  | .timestamp => timestamp text
  | _ => .error .malformed

end Scalar

end CommentStyle.Yaml
