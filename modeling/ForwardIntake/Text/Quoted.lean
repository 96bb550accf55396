import ForwardIntake.Text.GraphemeExtend
import ForwardIntake.Text.Ignorable
import ForwardIntake.Text.Unprintable

/-!
# Quoted text

Text between quotes as it is shown in messages, so that each of its scalar values can be told.
Quote, backslash and the usual controls have escapes of two characters; what would not be seen, or
would be drawn onto its neighbour, is written by its number.
-/

namespace ForwardIntake

namespace Quoted

/-- A scalar value by its number, as in `\u{1b}`. -/
def numbered (c : Char) : List Char :=
  ['\\', 'u', '\x7b'] ++ Nat.toDigits 16 c.toNat ++ ['\x7d']

/-- Whether a scalar value is drawn onto the one before it.  The two halfwidth sound marks extend the
syllable before them, but have a cell of their own. -/
def overlaid (c : Char) : Bool :=
  GraphemeExtend.test c && c != '\uff9e' && c != '\uff9f'

/-- Whether a scalar value is to be written by its number. -/
def hidden (c : Char) : Bool :=
  overlaid c || Ignorable.test c || Unprintable.test c

/-- One scalar value inside quotes. -/
def writeChar (c : Char) : List Char :=
  if c = '\x00' then ['\\', '0']
  else if c = '\t' then ['\\', 't']
  else if c = '\n' then ['\\', 'n']
  else if c = '\r' then ['\\', 'r']
  else if c = '\x22' then ['\\', '\x22']
  else if c = '\\' then ['\\', '\\']
  else if hidden c then numbered c
  else [c]

/-- A text between quotes. -/
def write (s : String) : String :=
  String.ofList ('\x22' :: (s.toList.flatMap writeChar ++ ['\x22']))

end Quoted

end ForwardIntake
