import CommentStyle.Text.Quoted

/-!
# UTF-8 and line ends

Octets are read one character at a time, each in its only form: no overlong sequence, no surrogate, nothing
above the last code point. A fault names the octets at fault and why: an octet that begins no character, one
that does not continue the character begun, or a character cut off by the end. Every line end is read as a
line feed.
-/

namespace CommentStyle.Text

/-- A carriage return, with the line feed behind it if there is one, is read as a line feed. -/
def unifyLineEnds : List Char → List Char
  | '\r' :: '\n' :: rest => '\n' :: unifyLineEnds rest
  | '\r' :: rest => '\n' :: unifyLineEnds rest
  | c :: rest => c :: unifyLineEnds rest
  | [] => []

namespace Utf8

inductive Reason where
  | start
  | continuation
  | cutOff
deriving DecidableEq, Repr

/-- The first octet at fault and its place, with the number of octets the fault takes in. -/
structure Fault where
  octet : UInt8
  position : Nat
  length : Nat
  reason : Reason
deriving DecidableEq, Repr

def Reason.text : Reason → String
  | start => "invalid start byte"
  | continuation => "invalid continuation byte"
  | cutOff => "unexpected end of data"

def Fault.message (f : Fault) : String :=
  "'utf-8' codec can't decode byte"
    ++ (if f.length = 1 then " 0x" ++ String.ofList (hex 2 f.octet.toNat) ++ " in position "
          ++ toString f.position
        else "s in position " ++ toString f.position ++ "-" ++ toString (f.position + f.length - 1))
    ++ ": " ++ f.reason.text

/-- How a character begins: the bits of its first octet, how many octets follow, and the bounds of the
first of them. -/
structure Lead where
  bits : Nat
  more : Nat
  low : Nat := 0x80
  high : Nat := 0xBF

def lead? (o : UInt8) : Option Lead :=
  let n := o.toNat
  if n < 0x80 then some { bits := n, more := 0 }
  else if 0xC2 ≤ n ∧ n ≤ 0xDF then some { bits := n - 0xC0, more := 1 }
  else if n = 0xE0 then some { bits := 0, more := 2, low := 0xA0 }
  else if n = 0xED then some { bits := 0xD, more := 2, high := 0x9F }
  else if 0xE1 ≤ n ∧ n ≤ 0xEF then some { bits := n - 0xE0, more := 2 }
  else if n = 0xF0 then some { bits := 0, more := 3, low := 0x90 }
  else if 0xF1 ≤ n ∧ n ≤ 0xF3 then some { bits := n - 0xF0, more := 3 }
  else if n = 0xF4 then some { bits := 4, more := 3, high := 0x8F }
  else none

/-- How far a character was read. -/
structure Begun where
  /-- First octet and its place. -/
  octet : UInt8
  position : Nat
  /-- Bits so far and octets still to come. -/
  bits : Nat
  more : Nat
  low : Nat
  high : Nat

/-- The characters of the octets from a place on, a character perhaps being begun. -/
def decodeFrom (position : Nat) (begun : Option Begun) : List UInt8 → Except Fault (List Char)
  | [] =>
    match begun with
    | none => .ok []
    | some b => .error ⟨b.octet, b.position, position - b.position, .cutOff⟩
  | o :: rest =>
    match begun with
    | none =>
      match lead? o with
      | none => .error ⟨o, position, 1, .start⟩
      | some l =>
        if l.more = 0 then
          (decodeFrom (position + 1) none rest).map (Char.ofNat l.bits :: ·)
        else decodeFrom (position + 1) (some ⟨o, position, l.bits, l.more, l.low, l.high⟩) rest
    | some b =>
      if b.low ≤ o.toNat ∧ o.toNat ≤ b.high then
        let bits := b.bits * 64 + (o.toNat - 0x80)
        if b.more = 1 then
          (decodeFrom (position + 1) none rest).map (Char.ofNat bits :: ·)
        else
          decodeFrom (position + 1)
            (some { b with bits, more := b.more - 1, low := 0x80, high := 0xBF }) rest
      else .error ⟨b.octet, b.position, position - b.position, .continuation⟩

def decode (octets : List UInt8) : Except Fault (List Char) := decodeFrom 0 none octets

end Utf8

end CommentStyle.Text
