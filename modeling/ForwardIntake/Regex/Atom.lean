import ForwardIntake.Regex.Flags
import ForwardIntake.Text.Natural

/-!
# Atoms of regular expressions

The smallest parts of a pattern, many of which are escapes.  No tables of characters are at hand but
those of the ASCII characters: so properties of scalar values cannot be asked for, and neither can
the cases of letters nor the digits, blanks and word characters among them.

A pattern has no closing brace; what would need one cannot be read.
-/

namespace ForwardIntake

namespace Regex

/-- A smallest part of a pattern. -/
inductive Atom where
  /-- A character, which may be given as a byte by two hexadecimal digits. -/
  | literal (c : Char) (byte : Bool)
  /-- Any character but a line feed. -/
  | any
  /-- A position at an end of a line or of the text. -/
  | anchor
  /-- A position at an edge of a word, or at none. -/
  | wordEdge
  /-- The digits, the blanks or the word characters, or all but those. -/
  | shorthand (negated : Bool)
  deriving DecidableEq, Repr

namespace Atom

/-- Whether an atom can be used on its own.  What is matched is text, so that nothing may match a
byte that is none of ASCII. -/
def isUsable (flags : Flags) : Atom → Bool
  | .literal c byte => if flags.unicode then !flags.ignoreCase else !byte || c.toNat < 0x80
  | .any => flags.unicode
  | .anchor | .wordEdge => true
  | .shorthand negated => !flags.unicode && !negated

/-- Whether an atom can be used in a class of characters. -/
def isUsableInClass (flags : Flags) : Atom → Bool
  | .literal c _ => if flags.unicode then !flags.ignoreCase else c.toNat < 0x80
  | .shorthand negated => !flags.unicode && !negated
  | .any | .anchor | .wordEdge => false

end Atom

/-! ### Escapes -/

/-- Whether a backslash in front of a character takes it as it is. -/
def isEscapable (c : Char) : Bool :=
  c.toNat < 0x80 && !c.isAlphanum && c != '<' && c != '>'

/-- The control characters that have a letter. -/
def controls : List (Char × Char) :=
  [('a', '\x07'), ('f', '\x0c'), ('t', '\t'), ('n', '\n'), ('r', '\r'), ('v', '\x0b')]

/-- Reads so many hexadecimal digits behind the number `n`, and what is skipped behind each. -/
def hexDigits (flags : Flags) : Nat → Nat → List Char → Option (Nat × List Char)
  | 0, n, text => some (n, text)
  | _ + 1, _, [] => none
  | count + 1, n, c :: rest =>
    match Natural.digit? 16 c with
    | some d => hexDigits flags count (n * 16 + d) (flags.skip rest)
    | none => none

/-- Reads a character that is given by so many hexadecimal digits. -/
def numbered (flags : Flags) (count : Nat) (text : List Char) : Option (Atom × List Char) :=
  (hexDigits flags count 0 (flags.skip text)).bind fun (n, rest) =>
    if n.isValidChar then some (.literal (Char.ofNat n) (count = 2), rest) else none

/-- Reads an escape from behind its backslash. -/
def escape (flags : Flags) : List Char → Option (Atom × List Char)
  | [] => none
  | c :: rest =>
    if c = 'x' then numbered flags 2 rest
    else if c = 'u' then numbered flags 4 rest
    else if c = 'U' then numbered flags 8 rest
    else if c = 'd' ∨ c = 's' ∨ c = 'w' then some (.shorthand false, rest)
    else if c = 'D' ∨ c = 'S' ∨ c = 'W' then some (.shorthand true, rest)
    else if c = 'A' ∨ c = 'z' then some (.anchor, rest)
    else if c = 'b' ∨ c = 'B' ∨ c = '<' ∨ c = '>' then some (.wordEdge, rest)
    else if isEscapable c then some (.literal c false, rest)
    else (controls.lookup c).map fun control => (.literal control false, rest)

end Regex

end ForwardIntake
