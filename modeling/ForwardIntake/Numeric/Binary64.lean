/-!
# Double-precision floats

A float of 64 bits is kept as its bit pattern.  A finite one stands for
`± significand · 2 ^ exponent`, and everything here is said on these two integers, so that no
rounding happens behind a definition.  `ofRatio` is the one place where a number is rounded: to the
nearest float, a tie to the even significand, and to infinity past the largest finite float.
`truncate?` cuts a non-negative float below `2 ^ 64` to its whole part, exactly.
-/

namespace ForwardIntake

/-- A 64-bit float, given by its bits. -/
structure Binary64 where
  bits : UInt64
  deriving DecidableEq, Repr, Inhabited

namespace Binary64

/-! ### The fields -/

/-- The leading bit of the significand of a normal float, which is not stored. -/
def leadingBit : Nat :=
  0x10000000000000

/-- Whether the sign bit is set. -/
def negative (x : Binary64) : Bool :=
  0x8000000000000000 ≤ x.bits.toNat

/-- The eleven exponent bits. -/
def exponentField (x : Binary64) : Nat :=
  x.bits.toNat / leadingBit % 0x800

/-- The fifty-two bits below the exponent. -/
def fraction (x : Binary64) : Nat :=
  x.bits.toNat % leadingBit

/-- Neither infinite nor a NaN. -/
def isFinite (x : Binary64) : Bool :=
  x.exponentField != 2047

/-- Not a number. -/
def isNaN (x : Binary64) : Bool :=
  x.exponentField == 2047 && x.fraction != 0

/-- Positive or negative infinity. -/
def isInfinite (x : Binary64) : Bool :=
  x.exponentField == 2047 && x.fraction == 0

/-- The integer significand of a finite float. -/
def significand (x : Binary64) : Nat :=
  if x.exponentField = 0 then x.fraction else x.fraction + leadingBit

/-- The power of two that scales the significand of a finite float. -/
def exponent (x : Binary64) : Int :=
  if x.exponentField = 0 then -1074 else (x.exponentField : Int) - 1075

/-- Positive or negative zero. -/
def isZero (x : Binary64) : Bool :=
  x.exponentField == 0 && x.fraction == 0

/-- Numerator and denominator of the magnitude of a finite float. -/
def magnitude (x : Binary64) : Nat × Nat :=
  if 0 ≤ x.exponent then (x.significand <<< x.exponent.toNat, 1)
  else (x.significand, 1 <<< (-x.exponent).toNat)

/-- Equality of the numbers that two floats stand for: the zeros are equal, and a NaN is equal to
nothing. -/
def numEq (x y : Binary64) : Bool :=
  !x.isNaN && !y.isNaN && (x == y || (x.isZero && y.isZero))

/-! ### Rounding -/

/-- The bits of positive infinity. -/
def infinityBits : Nat :=
  2047 * leadingBit

/-- The integer nearest to `n / d`, a tie going to the even one. -/
def roundDiv (n d : Nat) : Nat :=
  let q := n / d
  let r := n % d
  if d < 2 * r ∨ (2 * r = d ∧ q % 2 = 1) then q + 1 else q

/-- The power of two by which the significand of the float nearest to `n / d` is scaled. -/
def scaleOf (n d : Nat) : Int :=
  -- the two logarithms are rounded down, so the guess is right or one too large
  let guess : Int := (n.log2 : Int) - (d.log2 : Int) - 52
  let below : Bool :=
    if 0 ≤ guess then n < leadingBit * (d <<< guess.toNat)
    else n <<< (-guess).toNat < leadingBit * d
  max (if below then guess - 1 else guess) (-1074)

/-- The non-negative float nearest to `n / d`, for a positive `d`. -/
def ofRatio (n d : Nat) : Binary64 :=
  if n = 0 then ⟨0⟩
  else
    let q := scaleOf n d
    let m := if 0 ≤ q then roundDiv n (d <<< q.toNat) else roundDiv (n <<< (-q).toNat) d
    -- the leading bit of a normal significand adds one to the exponent field, and so does the carry
    -- of a significand that is rounded up to the next power of two
    ⟨UInt64.ofNat (min ((q + 1074).toNat * leadingBit + m) infinityBits)⟩

/-- The float nearest to a natural number. -/
def ofNat (n : Nat) : Binary64 :=
  ofRatio n 1

/-- The float nearest to the product of two non-negative finite floats. -/
def mul (x y : Binary64) : Binary64 :=
  ofRatio (x.magnitude.1 * y.magnitude.1) (x.magnitude.2 * y.magnitude.2)

/-- The float nearest to the quotient of two non-negative finite floats, the second not zero. -/
def div (x y : Binary64) : Binary64 :=
  ofRatio (x.magnitude.1 * y.magnitude.2) (x.magnitude.2 * y.magnitude.1)

/-- The float nearest to a power of ten. -/
def powerOfTen (k : Nat) : Binary64 :=
  ofNat (Nat.pow 10 k)

/-- The same float with the other sign. -/
def neg (x : Binary64) : Binary64 :=
  ⟨x.bits ^^^ 0x8000000000000000⟩

/-! ### Single precision -/

/-- The float of 64 bits with the value of the 32-bit pattern `w`.  Every such value is
representable, and a NaN stays one. -/
def ofBinary32 (w : Nat) : Binary64 :=
  let sign := w / 0x80000000 % 2 * 0x8000000000000000
  let field := w / 0x800000 % 0x100
  let fraction := w % 0x800000
  let magnitude :=
    if field = 255 then
      -- a NaN becomes a quiet one
      if fraction = 0 then infinityBits
      else infinityBits + 0x8000000000000 + fraction % 0x400000 * 0x20000000
    else if field = 0 then
      if fraction = 0 then 0
      else
        -- too small for a leading bit in the narrow form, but not in the wide one
        let top := fraction.log2
        (top + 874) * leadingBit + (fraction - 1 <<< top) <<< (52 - top)
    else (field + 896) * leadingBit + fraction * 0x20000000
  ⟨UInt64.ofNat (sign + magnitude)⟩

/-! ### Whole part -/

/-- The whole part of the magnitude of a finite float. -/
def wholePart (x : Binary64) : Nat :=
  x.magnitude.1 / x.magnitude.2

/-- The whole part of a finite float `x` with `0 ≤ x < 2 ^ 64`; none for any other float.
Negative zero counts as zero. -/
def truncate? (x : Binary64) : Option UInt64 :=
  if !x.isFinite then none
  else if x.negative && !x.isZero then none
  else if x.wholePart < 0x10000000000000000 then some (UInt64.ofNat x.wholePart)
  else none

end Binary64

end ForwardIntake
