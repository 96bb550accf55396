import ForwardIntake.Regex.Brackets
import ForwardIntake.Text.Alphanumeric

/-!
# Regular expressions

A pattern is a sequence of parts, or several of them between bars.  A part is an atom, a class in
brackets or a group in parentheses, and may be repeated.  A group may have a name, and may change
the flags up to its end.

`Regex.fault?` tells why no automaton can be built for a pattern.  The pattern is read once from left
to right; of the parts that are read only their heights are kept.
-/

namespace ForwardIntake

namespace Regex

/-- Why no automaton can be built for a pattern. -/
inductive Fault where
  /-- The pattern cannot be read, or uses characters that are not known. -/
  | unusable
  /-- The pattern asks for the edges of words in any script. -/
  | wordEdge
  deriving DecidableEq, Repr

/-- The text of a fault. -/
def Fault.message : Fault → String
  | .unusable => "error building NFA"
  | .wordEdge => "unsupported regex feature for DFAs: cannot build DFAs for regexes with Unicode " ++
      "word boundaries; switch to ASCII word boundaries, or heuristically enable Unicode word " ++
      "boundaries or use a different regex engine"

/-- The greatest height of a pattern. -/
def maxHeight : Nat :=
  250

/-! ### Groups -/

/-- The alternatives of a group, or of the whole pattern, as far as they are read. -/
structure Branches where
  /-- The heights of the branches in front of the last bar. -/
  finished : List Nat
  /-- The heights of the parts behind it, the last of them first. -/
  parts : List Nat
  /-- Whether the last part can be repeated. -/
  isRepeatable : Bool
  deriving Repr

namespace Branches

/-- Branches of which nothing is read. -/
def empty : Branches :=
  ⟨[], [], false⟩

/-- Adds a part of a given height. -/
def push (b : Branches) (height : Nat) : Branches :=
  { b with parts := height :: b.parts, isRepeatable := true }

/-- Adds a change of flags, which is a part that cannot be repeated. -/
def pushFlags (b : Branches) : Branches :=
  { b with parts := 0 :: b.parts, isRepeatable := false }

/-- Begins a further branch. -/
def divide (b : Branches) : Branches :=
  ⟨listHeight b.parts :: b.finished, [], false⟩

/-- The height of all branches. -/
def height (b : Branches) : Nat :=
  listHeight (listHeight b.parts :: b.finished)

/-- Repeats the last part. -/
def repeat? (b : Branches) : Option Branches :=
  match b.parts with
  | [] => none
  | height :: parts => if b.isRepeatable then some { b with parts := (height + 1) :: parts } else none

end Branches

/-- What is known of a pattern as far as it is read. -/
structure Progress where
  /-- The flags in force. -/
  flags : Flags
  /-- The names of groups. -/
  names : List (List Char)
  /-- Whether the edges of words in any script are asked for. -/
  hasWordEdge : Bool
  branches : Branches
  /-- The groups around, from the inside out, each with the flags in force in front of it. -/
  outer : List (Flags × Branches)
  deriving Repr

namespace Progress

/-- What is known of a pattern of which nothing is read. -/
def start : Progress :=
  ⟨.initial, [], false, .empty, []⟩

/-- Adds a part of a given height. -/
def push (p : Progress) (height : Nat) : Progress :=
  { p with branches := p.branches.push height }

/-- Opens a group with given flags. -/
def openGroup (p : Progress) (flags : Flags) : Progress :=
  { p with flags, branches := .empty, outer := (p.flags, p.branches) :: p.outer }

/-- Closes the innermost group. -/
def closeGroup? (p : Progress) : Option Progress :=
  match p.outer with
  | [] => none
  | (flags, branches) :: outer =>
    some { p with flags, branches := branches.push (p.branches.height + 1), outer }

/-! ### Parts -/

/-- Whether a name of a group can have a character. -/
def isNameChar (isFirst : Bool) (c : Char) : Bool :=
  if isFirst then c = '_' || Alphabetic.test c
  else c = '_' || c = '.' || c = '[' || c = ']' || Alphanumeric.test c

/-- Whether a text is a name of a group. -/
def isName : List Char → Bool
  | [] => false
  | c :: rest => isNameChar true c && rest.all (isNameChar false)

/-- Reads the name of a group, up to its angle bracket, and opens the group. -/
def named? (p : Progress) (text : List Char) : Option (Progress × List Char) :=
  let name := text.takeWhile (· != '>')
  match text.dropWhile (· != '>') with
  | [] => none
  | _ :: rest =>
    if isName name && !p.names.contains name then
      some ({ p with names := name :: p.names }.openGroup p.flags, rest)
    else none

/-- Reads on behind an opening parenthesis: what makes a group special, or a change of flags.  What
lies ahead or behind cannot be asked for. -/
def group? (p : Progress) (text : List Char) : Option (Progress × List Char) :=
  match text with
  | '?' :: '=' :: _ | '?' :: '!' :: _ | '?' :: '<' :: '=' :: _ | '?' :: '<' :: '!' :: _ => none
  | '?' :: 'P' :: '<' :: rest | '?' :: '<' :: rest => p.named? rest
  | '?' :: rest =>
    (p.flags.change? [] rest).bind fun change =>
      if change.last = ':' then some (p.openGroup change.flags, change.rest)
      else if change.isEmpty then none
      else some ({ p with flags := change.flags, branches := p.branches.pushFlags }, change.rest)
  | rest => some (p.openGroup p.flags, rest)

/-- Adds an atom, if it can be used. -/
def atom? (p : Progress) (atom : Atom) : Option Progress :=
  if atom.isUsable p.flags then
    some { p.push 0 with hasWordEdge := p.hasWordEdge || atom = .wordEdge && p.flags.unicode }
  else none

/-- What follows behind a sign of repetition, to which a question mark may belong. -/
def behindRepetition : List Char → List Char
  | '?' :: rest => rest
  | rest => rest

/-- Reads what begins with a given character. -/
def step? (p : Progress) (c : Char) (rest : List Char) : Option (Progress × List Char) :=
  if c = '(' then p.group? (p.flags.skip rest)
  else if c = ')' then p.closeGroup?.map (·, rest)
  else if c = '|' then some ({ p with branches := p.branches.divide }, rest)
  else if c = '[' then (brackets p.flags rest).map fun (height, rest) => (p.push height, rest)
  else if c = '?' ∨ c = '*' ∨ c = '+' then
    p.branches.repeat?.map fun branches => ({ p with branches }, behindRepetition rest)
  -- the count of a repetition ends at a closing brace
  else if c = '\x7b' then none
  else if c = '\\' then
    (escape p.flags rest).bind fun (atom, rest) => (p.atom? atom).map (·, rest)
  else if c = '.' then (p.atom? .any).map (·, rest)
  else if c = '^' ∨ c = '$' then (p.atom? .anchor).map (·, rest)
  else (p.atom? (.literal c false)).map (·, rest)

/-- Reads on up to the end of a pattern. -/
def steps? : Nat → Progress → List Char → Option Progress
  | 0, _, _ => none
  | fuel + 1, p, text =>
    match p.flags.skip text with
    | [] => some p
    | c :: rest => (p.step? c rest).bind fun (p, rest) => steps? fuel p rest

end Progress

/-- What is wrong with a pattern.  Each step reads a character, so that the length of the pattern is
fuel enough. -/
def fault? (pattern : List Char) : Option Fault :=
  match Progress.start.steps? (pattern.length + 1) pattern with
  | none => some .unusable
  | some p =>
    if !p.outer.isEmpty || maxHeight < p.branches.height then some .unusable
    else if p.hasWordEdge then some .wordEdge
    else none

end Regex

end ForwardIntake
