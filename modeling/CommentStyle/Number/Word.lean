import CommentStyle.Number.Binary64
import CommentStyle.Text.Digits
import CommentStyle.Text.Quoted

/-!
# Number words

The text of a whole number in a base, or of a number with a fraction and an exponent, with optional blanks
around it and a sign before it. Decimal digits of any script are accepted. A whole number in base ten is
read and written with at most 4300 digits; the other bases, being powers of two, have no such limit.
-/

namespace CommentStyle

/-- Why a text is no number, or a number has no text. -/
inductive NumberFault where
  | notWhole (base : Nat) (text : String)
  | notNumber (text : String)
  | tooManyDigits (count : Nat)
  /-- A whole number with more digits than are written. -/
  | tooLong
deriving DecidableEq, Repr

namespace NumberFault

/-- The greatest count of decimal digits a whole number is read or written with. -/
def digitLimit : Nat := 4300

def message : NumberFault → String
  | notWhole base text =>
    "invalid literal for int() with base " ++ toString base ++ ": "
      ++ String.ofList ((Text.quotedChars text.toList).take 200)
  | notNumber text => "could not convert string to float: " ++ Text.quoted text
  | tooManyDigits count =>
    "Exceeds the limit (4300 digits) for integer string conversion: value has " ++ toString count
      ++ " digits; use sys.set_int_max_str_digits() to increase the limit"
  | tooLong =>
    "Exceeds the limit (4300 digits) for integer string conversion; "
      ++ "use sys.set_int_max_str_digits() to increase the limit"

end NumberFault

namespace Number

/-- The value of a digit below the base; beyond nine the digits are the letters, in either case. -/
def digit? (base : Nat) (c : Char) : Option Nat :=
  let value :=
    if 'a' ≤ c ∧ c ≤ 'z' then some (c.toNat - 'a'.toNat + 10)
    else if 'A' ≤ c ∧ c ≤ 'Z' then some (c.toNat - 'A'.toNat + 10)
    else Text.digitValue? c
  value.filter (· < base)

/-- The value of a row of digits. -/
def ofDigits (base : Nat) (digits : List Nat) : Nat := digits.foldl (fun n d => n * base + d) 0

/-- A sign in front, and what follows it. -/
def splitSign : List Char → Bool × List Char
  | '-' :: rest => (true, rest)
  | '+' :: rest => (false, rest)
  | rest => (false, rest)

def signed (negative : Bool) (n : Nat) : Int := if negative then -(n : Int) else n

/-- The letter that may follow a leading zero to name the base. -/
def baseMark (base : Nat) : Option Char :=
  if base = 2 then some 'b' else if base = 8 then some 'o' else if base = 16 then some 'x' else none

def dropBaseMark (base : Nat) : List Char → List Char
  | '0' :: c :: rest => if baseMark base = some c.toLower then rest else '0' :: c :: rest
  | text => text

/-- A whole number in the given base. Too many digits are refused before what follows them is looked at. -/
def whole? (base : Nat) (text : List Char) : Except NumberFault Int :=
  let (negative, rest) := splitSign (Text.trimOf Text.isNumberBlank text)
  let digits := dropBaseMark base rest
  let count := (digits.takeWhile fun c => (digit? base c).isSome).length
  if base = 10 ∧ count > NumberFault.digitLimit then .error (.tooManyDigits count)
  else
    match digits.mapM (digit? base) with
    | some (d :: ds) => .ok (signed negative (ofDigits base (d :: ds)))
    | _ => .error (.notWhole base (String.ofList text))

/-- A whole number has few enough digits to be written. -/
def isWritable (n : Int) : Bool := n.natAbs < Nat.pow 10 NumberFault.digitLimit

/-- A whole number in base ten. -/
def written (n : Int) : Except NumberFault String :=
  if isWritable n then .ok (toString n) else .error .tooLong

/-- Digits, an optional fraction and an optional exponent, with at least one digit before or after the
point. The result is the number's digits and its power of ten. -/
def decimal? (text : List Char) : Option (Nat × Int) :=
  let isDigit (c : Char) : Bool := (Text.digitValue? c).isSome
  let values (cs : List Char) : List Nat := cs.filterMap Text.digitValue?
  let before := text.takeWhile isDigit
  let rest := text.dropWhile isDigit
  let (after, rest) := match rest with
    | '.' :: r => (r.takeWhile isDigit, r.dropWhile isDigit)
    | r => ([], r)
  if before.isEmpty && after.isEmpty then none
  else
    let digits := ofDigits 10 (values (before ++ after))
    let shift : Int := -(after.length : Int)
    match rest with
    | [] => some (digits, shift)
    | c :: r =>
      if c == 'e' || c == 'E' then
        let (negative, ds) := splitSign r
        if ds.isEmpty || !ds.all isDigit then none
        else some (digits, signed negative (ofDigits 10 (values ds)) + shift)
      else none

/-- A number with an optional fraction and exponent, an infinity, or not-a-number. -/
def real? (text : List Char) : Except NumberFault Binary64 :=
  let (negative, rest) := splitSign (Text.trimOf Text.isNumberBlank text)
  let word := String.ofList (rest.map Char.toLower)
  if word = "inf" ∨ word = "infinity" then .ok (.infinite negative)
  else if word = "nan" then .ok .nan
  else
    match decimal? rest with
    | some (digits, power) => .ok (.ofDecimal negative digits power)
    | none => .error (.notNumber (String.ofList text))

end Number

end CommentStyle
