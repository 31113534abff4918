/-!
# Double precision numbers

A finite double is a sign, a significand below 2^53 and an exponent of two, in the one form in which the
significand is at least 2^52 or the exponent is the least one, -1074. Rational numbers are rounded to the
nearest double, and a half goes to the even significand. Everything is exact integer arithmetic, so that
equal numbers are equal terms (the two zeros apart).
-/

namespace CommentStyle

inductive Binary64 where
  | finite (negative : Bool) (significand : Nat) (exponent : Int)
  | infinite (negative : Bool)
  | nan
deriving DecidableEq, Repr

/-- The quotient rounded to the nearest integer, a half going to the even neighbour. -/
def roundDiv (num den : Nat) : Nat :=
  let q := num / den
  let r := num % den
  if 2 * r < den then q
  else if 2 * r = den then q + q % 2
  else q + 1

namespace Binary64

def leastExponent : Int := -1074

def zero (negative : Bool) : Binary64 := finite negative 0 leastExponent

/-- A significand of at most 2^53 brought into the one form, or infinity above the greatest exponent. -/
def pack (negative : Bool) (significand : Nat) (exponent : Int) : Binary64 :=
  let (m, e) := if significand = Nat.pow 2 53 then (Nat.pow 2 52, exponent + 1) else (significand, exponent)
  if e > 971 then infinite negative else finite negative m e

/-- Numerator and denominator of `num / (den * 2 ^ e)`. -/
def scaled (num den : Nat) (e : Int) : Nat × Nat :=
  if e < 0 then (num * Nat.pow 2 (-e).toNat, den) else (num, den * Nat.pow 2 e.toNat)

/-- The double nearest to `num / den`. -/
def ofRatio (negative : Bool) (num den : Nat) : Binary64 :=
  if num = 0 then zero negative
  else
    -- `num / den` lies strictly between `2 ^ (guess + 51)` and `2 ^ (guess + 53)`
    let guess : Int := (Nat.log2 num : Int) - Nat.log2 den - 52
    let (n, d) := scaled num den guess
    let e := max leastExponent (if n < Nat.pow 2 52 * d then guess - 1 else guess)
    let (n, d) := scaled num den e
    pack negative (roundDiv n d) e

/-- The double nearest to `digits * 10 ^ power`. The two guards keep the powers small. -/
def ofDecimal (negative : Bool) (digits : Nat) (power : Int) : Binary64 :=
  let size : Int := (Nat.log2 digits : Int) * 30103 / 100000
  if digits = 0 then zero negative
  else if size + power > 400 then infinite negative
  else if size + power < -400 then zero negative
  else if power < 0 then ofRatio negative digits (Nat.pow 10 (-power).toNat)
  else ofRatio negative (digits * Nat.pow 10 power.toNat) 1

/-- The double nearest to a whole number. -/
def ofInt (n : Int) : Binary64 := ofRatio (n < 0) n.natAbs 1

def negate : Binary64 → Binary64
  | finite s m e => finite (!s) m e
  | infinite s => infinite (!s)
  | nan => nan

def isNegative : Binary64 → Bool
  | finite s _ _ => s
  | infinite s => s
  | nan => false

/-- The double nearest to `m * 2 ^ e`, where zero takes the given sign. -/
def ofScaled (zeroSign : Bool) (m : Int) (e : Int) : Binary64 :=
  if m = 0 then zero zeroSign
  else if e < 0 then ofRatio (m < 0) m.natAbs (Nat.pow 2 (-e).toNat)
  else ofRatio (m < 0) (m.natAbs * Nat.pow 2 e.toNat) 1

def signed (negative : Bool) (m : Nat) : Int := if negative then -(m : Int) else m

def mul : Binary64 → Binary64 → Binary64
  | nan, _ => nan
  | _, nan => nan
  | infinite s, b => if b = zero false ∨ b = zero true then nan else infinite (s != b.isNegative)
  | a, infinite t => if a = zero false ∨ a = zero true then nan else infinite (a.isNegative != t)
  | finite s m e, finite t k f => ofScaled (s != t) (signed s m * signed t k) (e + f)

def add : Binary64 → Binary64 → Binary64
  | nan, _ => nan
  | _, nan => nan
  | infinite s, infinite t => if s = t then infinite s else nan
  | infinite s, _ => infinite s
  | _, infinite t => infinite t
  | finite s m e, finite t k f =>
    let low := min e f
    let sum := signed s m * Nat.pow 2 (e - low).toNat + signed t k * Nat.pow 2 (f - low).toNat
    ofScaled (s && t) sum low

/-- The number is whole and equal to the given one. -/
def equalsInt (x : Binary64) (n : Int) : Bool :=
  match x with
  | finite s m e =>
    if e < 0 then signed s m == n * Nat.pow 2 (-e).toNat else signed s m * Nat.pow 2 e.toNat == n
  | _ => false

/-- Numeric equality, in which the two zeros agree. -/
def sameNumber (x y : Binary64) : Bool :=
  match x, y with
  | finite s m e, finite t k f => m == k && (m == 0 || (s == t && e == f))
  | infinite s, infinite t => s == t
  | nan, nan => true
  | _, _ => false

end Binary64

end CommentStyle
