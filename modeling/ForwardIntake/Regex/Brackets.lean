import ForwardIntake.Regex.Atom

/-!
# Classes of characters

A class stands in brackets: characters, ranges of them, named classes such as `[:alpha:]`, and other
classes in brackets of their own.  Operators between such lists take what is in both, in the first
only, or in one of the two.

Of a class that was read only its height is kept: how many parts stand inside one another.
-/

namespace ForwardIntake

namespace Regex

/-- The height of a list of parts of given heights: a list of two or more is a part itself. -/
def listHeight : List Nat → Nat
  | [] => 0
  | [height] => height
  | heights => heights.foldl max 0 + 1

/-- A bracket that is not closed yet. -/
structure Bracket where
  /-- The height of what stands in front of the last operator. -/
  left : Option Nat
  /-- The heights of the items behind it, the last of them first. -/
  items : List Nat
  deriving Repr

namespace Bracket

/-- A bracket with nothing in it. -/
def empty : Bracket :=
  ⟨none, []⟩

/-- The height of what is in a bracket. -/
def height (b : Bracket) : Nat :=
  match b.left with
  | none => listHeight b.items
  | some left => max left (listHeight b.items) + 1

/-- Adds an item of a given height. -/
def push (b : Bracket) (height : Nat) : Bracket :=
  { b with items := height :: b.items }

/-- Adds an operator. -/
def operate (b : Bracket) : Bracket :=
  ⟨some b.height, []⟩

end Bracket

/-- Where in a bracket the next character stands. -/
inductive BracketPlace where
  /-- Behind the opening bracket. -/
  | opened
  /-- Behind the mark of a class that is to be left out. -/
  | negated
  /-- Behind dashes at the beginning. -/
  | dashes
  | inside
  deriving DecidableEq, Repr

/-! ### Items -/

/-- The names of the named classes. -/
def classNames : List String :=
  ["alnum", "alpha", "ascii", "blank", "cntrl", "digit", "graph", "lower", "print", "punct", "space",
   "upper", "word", "xdigit"]

/-- Reads a named class from behind its first bracket, and tells whether it is to be left out. -/
def namedClass? : List Char → Option (Bool × List Char)
  | ':' :: text =>
    let (negated, text) := match text with
      | '^' :: rest => (true, rest)
      | rest => (false, rest)
    match text.dropWhile (· != ':') with
    | ':' :: ']' :: rest =>
      if classNames.contains (String.ofList (text.takeWhile (· != ':'))) then some (negated, rest)
      else none
    | _ => none
  | _ => none

/-- Whether a named class can be used. -/
def isNamedUsable (flags : Flags) (negated : Bool) : Bool :=
  if flags.unicode then !flags.ignoreCase else !negated

/-- Reads an end of a range, or an item that is no range. -/
def classAtom (flags : Flags) : List Char → Option (Atom × List Char)
  | [] => none
  | '\\' :: rest => escape flags rest
  | c :: rest => some (.literal c false, rest)

/-- Whether two atoms are the ends of a range. -/
def isRange : Atom → Atom → Bool
  | .literal first _, .literal last _ => first ≤ last
  | _, _ => false

/-- Reads an item that can be used, which may be a range.  A dash in front of a closing bracket or
of another dash makes no range. -/
def classItem (flags : Flags) (text : List Char) : Option (List Char) :=
  (classAtom flags text).bind fun (first, rest) =>
    if first.isUsableInClass flags then
      match flags.skip rest with
      | [] => none
      | c :: rest =>
        if c != '-' || flags.peek? rest = some ']' || flags.peek? rest = some '-' then some (c :: rest)
        else
          (classAtom flags (flags.skip rest)).bind fun (last, rest) =>
            if last.isUsableInClass flags && isRange first last then some rest else none
    else none

/-! ### Brackets -/

/-- Whether a character begins an operator, which is written by doubling it. -/
def isOperator (c : Char) (rest : List Char) : Bool :=
  (c = '&' || c = '-' || c = '~') && rest.head? = some c

/-- Reads on in a bracket, inside of others, up to the end of the outermost one.  A class that is to
be left out cannot be used for bytes. -/
def bracketsFrom (flags : Flags) :
    Nat → BracketPlace → Bracket → List Bracket → List Char → Option (Nat × List Char)
  | 0, _, _, _, _ => none
  | fuel + 1, place, bracket, outer, text =>
    match flags.skip text with
    | [] => none
    | c :: rest =>
      let literal (next : BracketPlace) : Option (Nat × List Char) :=
        if (Atom.literal c false).isUsableInClass flags then
          bracketsFrom flags fuel next (bracket.push 0) outer rest
        else none
      if place = .opened ∧ c = '^' then
        if flags.unicode then bracketsFrom flags fuel .negated bracket outer rest else none
      else if place ≠ .inside ∧ c = '-' then literal .dashes
      else if (place = .opened ∨ place = .negated) ∧ c = ']' then literal .inside
      else if c = '[' then
        match namedClass? rest with
        | some (negated, rest) =>
          if isNamedUsable flags negated then
            bracketsFrom flags fuel .inside (bracket.push 0) outer rest
          else none
        | none => bracketsFrom flags fuel .opened .empty (bracket :: outer) rest
      else if c = ']' then
        let height := bracket.height + 1
        match outer with
        | [] => some (height, rest)
        | parent :: outer => bracketsFrom flags fuel .inside (parent.push height) outer rest
      else if isOperator c rest then
        bracketsFrom flags fuel .inside bracket.operate outer (rest.drop 1)
      else
        match classItem flags (c :: rest) with
        | some rest => bracketsFrom flags fuel .inside (bracket.push 0) outer rest
        | none => none

/-- Reads a class from behind its first bracket, and tells its height.  Each round reads a character,
so that the length of the text is fuel enough. -/
def brackets (flags : Flags) (text : List Char) : Option (Nat × List Char) :=
  bracketsFrom flags (text.length + 1) .opened .empty [] text

end Regex

end ForwardIntake
