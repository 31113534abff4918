import CommentStyle.Number.Binary64

/-!
# The shortest decimal of a double

Of the decimals that round to a given double, the one with the fewest digits is shown, and of those the
nearest to the double. For each count of digits from one to seventeen the two neighbours of the double on
that decimal grid are tried against the interval of numbers that round to it; the ends belong to the
interval when the significand is even.
-/

namespace CommentStyle

/-- `digits * 10 ^ power`, the digits not ending in a zero. -/
structure Decimal where
  digits : Nat
  power : Int
deriving DecidableEq, Repr

namespace Decimal

/-- The greatest `k` with `10 ^ k ≤ num / den`, for positive `num` and `den`. -/
def magnitude (num den : Nat) : Int :=
  if den ≤ num then ((Nat.toDigits 10 (num / den)).length : Int) - 1
  else
    match (List.range 400).find? fun j => den ≤ num * Nat.pow 10 j with
    | some j => -(j : Int)
    | none => -400

/-- Numerator and denominator of `num / den / 10 ^ k`. -/
def shifted (num den : Nat) (k : Int) : Nat × Nat :=
  if k < 0 then (num * Nat.pow 10 (-k).toNat, den) else (num, den * Nat.pow 10 k.toNat)

/-- The multiple of `10 ^ k` nearest to the middle of an interval that holds one of the middle's two
neighbours on that grid. The three numbers are over the common denominator `den`. -/
def onGrid (low mid high den : Nat) (closed : Bool) (k : Int) : Option Nat :=
  let (v, d) := shifted mid den k
  let (l, _) := shifted low den k
  let (h, _) := shifted high den k
  let inside (g : Nat) : Bool :=
    if closed then l ≤ g * d && g * d ≤ h else l < g * d && g * d < h
  let below := v / d
  let above := below + 1
  let gapBelow := v - below * d
  let gapAbove := above * d - v
  match inside below, inside above with
  | true, true =>
    if gapBelow < gapAbove then some below
    else if gapAbove < gapBelow then some above
    else some (below + below % 2)
  | true, false => some below
  | false, true => some above
  | false, false => none

def stripZeros : Nat → Nat → Int → Decimal
  | 0, digits, power => ⟨digits, power⟩
  | fuel + 1, digits, power =>
    if digits % 10 = 0 ∧ digits ≠ 0 then stripZeros fuel (digits / 10) (power + 1) else ⟨digits, power⟩

/-- The shortest decimal that rounds to `m * 2 ^ e`, for a positive significand in its one form. -/
def shortest (m : Nat) (e : Int) : Decimal :=
  -- in units of a quarter of the last place: the lower neighbour of a power of two is closer
  let low := if m = Nat.pow 2 52 ∧ e > Binary64.leastExponent then 4 * m - 1 else 4 * m - 2
  let mid := 4 * m
  let high := 4 * m + 2
  let two := e - 2
  let den := if two < 0 then Nat.pow 2 (-two).toNat else 1
  let unit := if two < 0 then 1 else Nat.pow 2 two.toNat
  let top := magnitude (mid * unit) den
  let hit := (List.range 17).findSome? fun n : Nat =>
    let k := top - (n : Int)
    (onGrid (low * unit) (mid * unit) (high * unit) den (m % 2 = 0) k).map fun g => (g, k)
  match hit with
  | some (g, k) => stripZeros 20 g k
  | none => ⟨m, 0⟩

end Decimal

/-- Where positional writing ends and what an exponent looks like. -/
structure NumberStyle where
  leastPositional : Int
  firstScientific : Int
  exponentDigits : Nat

/-- Numbers from 0.0001 up to below 10^16 are written positionally, always with a point; others take an
exponent with a sign and at least two digits. -/
def shownNumber : NumberStyle := ⟨-4, 16, 2⟩

namespace Binary64

def digitsText (style : NumberStyle) (d : Decimal) : List Char :=
  let ds := Nat.toDigits 10 d.digits
  let count : Int := ds.length
  let top := d.power + count - 1
  if style.leastPositional ≤ top ∧ top < style.firstScientific then
    if 0 ≤ d.power then ds ++ List.replicate d.power.toNat '0' ++ ['.', '0']
    else if 0 ≤ top then ds.take (top + 1).toNat ++ '.' :: ds.drop (top + 1).toNat
    else '0' :: '.' :: List.replicate (-top - 1).toNat '0' ++ ds
  else
    let point := match ds.drop 1 with
      | [] => []
      | rest => '.' :: rest
    let sign := if top < 0 then '-' else '+'
    ds.take 1 ++ point ++ 'e' :: sign ::
      (Nat.toDigits 10 top.natAbs).leftpad style.exponentDigits '0'

def text : Binary64 → String
  | nan => "nan"
  | infinite s => if s then "-inf" else "inf"
  | finite s m e =>
    let sign := if s then ['-'] else []
    let body := if m = 0 then ['0', '.', '0'] else digitsText shownNumber (Decimal.shortest m e)
    String.ofList (sign ++ body)

end Binary64

end CommentStyle
