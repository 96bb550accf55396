import ForwardIntake.Text.ScalarRanges

/-!
# Blanks

The scalar values that only keep others apart.  The table is that of the property White_Space of
Unicode 17; `trim` takes the blanks off both ends of a text.
-/

namespace ForwardIntake

namespace Blank

/-- The ranges of blanks, in ascending order. -/
def ranges : List (Nat × Nat) :=
  [(0x9, 0xD), (0x20, 0x20), (0x85, 0x85), (0xA0, 0xA0), (0x1680, 0x1680), (0x2000, 0x200A),
   (0x2028, 0x2029), (0x202F, 0x202F), (0x205F, 0x205F), (0x3000, 0x3000)]

/-- Whether a scalar value is a blank. -/
def test (c : Char) : Bool :=
  ScalarRanges.has ranges c

/-- A text without the blanks at its ends. -/
def trim (cs : List Char) : List Char :=
  ((cs.dropWhile test).reverse.dropWhile test).reverse

end Blank

end ForwardIntake
