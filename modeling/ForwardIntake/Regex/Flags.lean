import ForwardIntake.Text.Blank

/-!
# Flags of regular expressions

Flags are changed by letters inside a pattern, such as `i-u` for ignoring the case of letters and
for matching bytes.  Only three of them decide whether a pattern can be read and used.
-/

namespace ForwardIntake

namespace Regex

/-- The flags that are in force at a place in a pattern. -/
structure Flags where
  /-- Letters stand for both of their cases. -/
  ignoreCase : Bool
  /-- What is matched are scalar values, and not bytes. -/
  unicode : Bool
  /-- Blanks and comments in the pattern are skipped. -/
  verbose : Bool
  deriving DecidableEq, Repr

namespace Flags

/-- The flags at the beginning of a pattern. -/
def initial : Flags :=
  ⟨false, true, false⟩

/-! ### Changes -/

/-- The letters of all flags. -/
def letters : List Char :=
  ['i', 'm', 's', 'U', 'u', 'R', 'x']

/-- The flags with one of them set or cleared. -/
def set (flags : Flags) (letter : Char) (value : Bool) : Flags :=
  if letter = 'i' then { flags with ignoreCase := value }
  else if letter = 'u' then { flags with unicode := value }
  else if letter = 'x' then { flags with verbose := value }
  else flags

/-- A change of flags that was read. -/
structure Change where
  /-- The flags behind the change. -/
  flags : Flags
  /-- Whether nothing stands in the change. -/
  isEmpty : Bool
  /-- The character at its end, which is a colon or a closing parenthesis. -/
  last : Char
  rest : List Char
  deriving Repr

/-- Reads a change of flags behind the letters and the dash in `seen`, the last of them first.  The
letters behind the dash are those of flags to be cleared; nothing stands twice. -/
def change? (flags : Flags) (seen : List Char) : List Char → Option Change
  | [] => none
  | c :: rest =>
    if c = ':' ∨ c = ')' then
      if seen.head? = some '-' then none else some ⟨flags, seen.isEmpty, c, rest⟩
    else if c ∈ seen then none
    else if c = '-' then flags.change? (c :: seen) rest
    else if c ∈ letters then (flags.set c (!seen.contains '-')).change? (c :: seen) rest
    else none

/-! ### Blanks and comments -/

/-- What follows behind blanks and comments, inside a comment or outside. -/
def behindBlanks (inside : Bool) : List Char → List Char
  | [] => []
  | c :: rest =>
    if inside then behindBlanks (c != '\n') rest
    else if c = '#' then behindBlanks true rest
    else if Blank.test c then behindBlanks false rest
    else c :: rest

/-- What follows behind all that is skipped. -/
def skip (flags : Flags) (text : List Char) : List Char :=
  if flags.verbose then behindBlanks false text else text

/-- The character that is looked for behind a dash: the next one, or, where blanks are skipped, the
first that is no blank, behind one number sign at most. -/
def peek? (flags : Flags) (text : List Char) : Option Char :=
  if flags.verbose then
    let behind := match text.dropWhile Blank.test with
      | '#' :: rest => rest.dropWhile Blank.test
      | rest => rest
    behind.head?.or text.head?
  else text.head?

end Flags

end Regex

end ForwardIntake
