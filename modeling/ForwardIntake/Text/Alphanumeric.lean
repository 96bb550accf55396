import ForwardIntake.Text.Alphabetic
import ForwardIntake.Text.Numeral

/-!
# Letters and numerals

The scalar values that words and numbers are written with in any script.
-/

namespace ForwardIntake

namespace Alphanumeric

/-- Whether a scalar value is a letter or a numeral. -/
def test (c : Char) : Bool :=
  Alphabetic.test c || Numeral.test c

end Alphanumeric

end ForwardIntake
