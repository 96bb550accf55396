import ForwardIntake.Numeric.Shortest

/-!
# Laying out floats

How the digits of a float are written down.  A `FloatLayout` is the record of the choices a format
makes: which leading exponents are written positionally, whether a whole number shows a point, where
ties go, and the words for the floats that are no numbers.  Two of them are in use: `plain`, which
never shows an exponent, and `compact`, the form of numbers in written JSON.
-/

namespace ForwardIntake

/-- The choices a format makes about floats. -/
structure FloatLayout where
  /-- Where a tie between two shortest decimals goes. -/
  tie : TieRule
  /-- The leading exponents that are written positionally, from least to greatest; without bounds
  all of them are. -/
  positional : Option (Int × Int)
  /-- Whether a whole number is written with `.0` behind it. -/
  showsPoint : Bool

namespace FloatLayout

/-- Digits with the point where it belongs and no exponent. -/
def positionalDigits (layout : FloatLayout) (d : Decimal) : String :=
  let digits := d.digits
  if 0 ≤ d.exponent then
    String.ofList (digits ++ List.replicate d.exponent.toNat '0')
      ++ (if layout.showsPoint then ".0" else "")
  else
    let places := (-d.exponent).toNat
    if places < digits.length then
      String.ofList (digits.take (digits.length - places)) ++ "."
        ++ String.ofList (digits.drop (digits.length - places))
    else
      "0." ++ String.ofList (List.replicate (places - digits.length) '0' ++ digits)

/-- One digit before the point, the others after it, and a signed exponent. -/
def scientificDigits (d : Decimal) : String :=
  let digits := d.digits
  let mantissa := match digits with
    | [] => ""
    | first :: [] => String.singleton first
    | first :: others => String.singleton first ++ "." ++ String.ofList others
  let e := d.leadingExponent
  mantissa ++ "e" ++ (if e < 0 then "-" else "+") ++ toString e.natAbs

/-- The text of a finite float. -/
def writeFinite (layout : FloatLayout) (x : Binary64) : String :=
  let d := x.shortest layout.tie
  let magnitude := match layout.positional with
    | none => layout.positionalDigits d
    | some (least, greatest) =>
      if least ≤ d.leadingExponent ∧ d.leadingExponent ≤ greatest then layout.positionalDigits d
      else scientificDigits d
  if x.negative then "-" ++ magnitude else magnitude

/-- The text of any float. -/
def write (layout : FloatLayout) (x : Binary64) : String :=
  if x.isNaN then "NaN"
  else if x.isInfinite then (if x.negative then "-inf" else "inf")
  else layout.writeFinite x

/-- All digits are written out, a whole number without a point, and a tie goes up. -/
def plain : FloatLayout where
  tie := .up
  positional := none
  showsPoint := false

/-- Numbers from `0.00001` to below `10 ^ 16` are written out, a whole number with `.0`; all others
get an exponent.  A tie goes to the even digit. -/
def compact : FloatLayout where
  tie := .toEven
  positional := some (-5, 15)
  showsPoint := true

end FloatLayout

namespace Binary64

/-- The plain text of a float, with `.0` behind a finite whole number. -/
def withPoint (x : Binary64) : String :=
  let text := FloatLayout.plain.write x
  if x.isFinite && !text.toList.contains '.' then text ++ ".0" else text

end Binary64

end ForwardIntake
