import ForwardIntake.Numeric.Binary64

/-!
# Shortest decimals

The shortest decimal number that is read back as a given positive float.  The numbers that round
to the float form an interval around it, with its ends when the significand is even.  On the grid
of multiples of a power of ten only the two neighbours of the float can be the nearest ones in that
interval, so the search tries these two on ever finer grids and stops at the first hit.  When both
are hits the nearer one wins; a tie goes up or to the even digit, as the caller asks.
-/

namespace ForwardIntake

/-- The decimal number `coefficient · 10 ^ exponent`. -/
structure Decimal where
  coefficient : Nat
  exponent : Int
  deriving DecidableEq, Repr

/-- Where a number goes that lies exactly between two candidates. -/
inductive TieRule where
  | up
  | toEven
  deriving DecidableEq, Repr

namespace Decimal

/-- The decimal digits of the coefficient. -/
def digits (d : Decimal) : List Char :=
  Nat.toDigits 10 d.coefficient

/-- The exponent of the first digit. -/
def leadingExponent (d : Decimal) : Int :=
  d.exponent + (d.digits.length - 1 : Nat)

/-- Moves trailing zeros of the coefficient into the exponent, at most `fuel` of them. -/
def trim : Nat → Decimal → Decimal
  | 0, d => d
  | fuel + 1, d =>
    if d.coefficient ≠ 0 ∧ d.coefficient % 10 = 0 then
      trim fuel ⟨d.coefficient / 10, d.exponent + 1⟩
    else d

end Decimal

namespace Binary64

/-- The numbers that are read as a float: those between `low / unit` and `high / unit`, around the
float's own value `mid / unit`, the ends themselves included when `closed`. -/
structure Rounding where
  low : Nat
  mid : Nat
  high : Nat
  unit : Nat
  closed : Bool

/-- The interval of numbers that round to the magnitude of a finite non-zero float.  Below a power
of two the spacing halves, so the lower end is then half as far away. -/
def rounding (x : Binary64) : Rounding :=
  let m := x.significand
  let q := x.exponent - 2
  let (scale, unit) := if 0 ≤ q then (1 <<< q.toNat, 1) else (1, 1 <<< (-q).toNat)
  let below := if x.fraction = 0 ∧ 1 < x.exponentField then 1 else 2
  { low := (4 * m - below) * scale
    mid := 4 * m * scale
    high := (4 * m + 2) * scale
    unit := unit
    closed := m % 2 = 0 }

/-- The candidate on the grid of multiples of `10 ^ e`, if one lies in the interval. -/
def Rounding.candidate? (tie : TieRule) (i : Rounding) (e : Int) : Option Decimal :=
  -- brought to one denominator, the grid is that of the multiples of `step`
  let (scale, step) :=
    if 0 ≤ e then (1, i.unit * Nat.pow 10 e.toNat) else (Nat.pow 10 (-e).toNat, i.unit)
  let mid := i.mid * scale
  let floor := mid / step
  let left := mid % step
  let downFits : Bool :=
    if i.closed then i.low * scale ≤ floor * step else i.low * scale < floor * step
  let upFits : Bool :=
    if i.closed then (floor + 1) * step ≤ i.high * scale
    else (floor + 1) * step < i.high * scale
  let downWins : Bool :=
    if 2 * left = step then tie == .toEven && floor % 2 == 0 else 2 * left < step
  if downFits && (!upFits || downWins) then some ⟨floor, e⟩
  else if upFits then some ⟨floor + 1, e⟩
  else none

/-- The first hit on the grids of `10 ^ e`, `10 ^ (e - 1)`, …, `fuel` of them. -/
def Rounding.search (tie : TieRule) (i : Rounding) : Nat → Int → Option Decimal
  | 0, _ => none
  | fuel + 1, e =>
    match i.candidate? tie e with
    | some d => some d
    | none => i.search tie fuel (e - 1)

/-- A power of ten above the float: its binary logarithm, rounded up, in decimal. -/
def decimalCeiling (x : Binary64) : Int :=
  ((x.significand.log2 : Int) + x.exponent) * 30103 / 100000 + 1

/-- The shortest decimal that is read back as the magnitude of a finite float. -/
def shortest (tie : TieRule) (x : Binary64) : Decimal :=
  if x.significand = 0 then ⟨0, 0⟩
  else
    match x.rounding.search tie 24 x.decimalCeiling with
    | some d => d.trim 24
    -- seventeen digits always suffice, so some grid had a hit
    | none => ⟨x.magnitude.1 / x.magnitude.2, 0⟩

end Binary64

end ForwardIntake
