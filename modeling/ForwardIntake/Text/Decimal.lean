/-!
# Decimal numbers as people give them

A sign, digits with a point among or around them, and an exponent; or a word for what is no finite
number.  All but the digits may be missing, and there is no space.
-/

namespace ForwardIntake

namespace Decimal

/-- The words for what is no finite number. -/
def words : List String :=
  ["inf", "infinity", "nan"]

/-- A text without its sign. -/
def unsigned : List Char → List Char
  | '+' :: rest => rest
  | '-' :: rest => rest
  | text => text

/-- Whether a text is an exponent, or nothing. -/
def isExponent : List Char → Bool
  | [] => true
  | mark :: rest =>
    (mark = 'e' || mark = 'E') && !(unsigned rest).isEmpty && (unsigned rest).all Char.isDigit

/-- Whether a text is an exponent, or nothing, behind a fraction of which there is some or none. -/
def isFraction (found : Bool) (text : List Char) : Bool :=
  (found || !(text.takeWhile Char.isDigit).isEmpty) && isExponent (text.dropWhile Char.isDigit)

/-- Whether a text is a finite number without a sign. -/
def isFinite (text : List Char) : Bool :=
  let found := !(text.takeWhile Char.isDigit).isEmpty
  match text.dropWhile Char.isDigit with
  | '.' :: rest => isFraction found rest
  | rest => found && isExponent rest

/-- Whether a text is a number. -/
def isNumber (text : String) : Bool :=
  let digits := unsigned text.toList
  isFinite digits || words.contains (String.ofList digits).toLower

end Decimal

end ForwardIntake
