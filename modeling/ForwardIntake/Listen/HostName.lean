/-!
# Names of hosts

A name of a host has labels between dots, and may have a dot at its end.  A backslash in front of a
character takes it as it is, and one in front of three digits stands for the character of that
number.
-/

namespace ForwardIntake

namespace HostName

/-- The most characters of a label. -/
def maxLabel : Nat :=
  63

/-- The most characters of a name, its last dot not counted. -/
def maxLength : Nat :=
  253

/-- Whether a label can have a character. -/
def allowed (c : Char) : Bool :=
  c.isAlphanum || c = '-' || c = '_'

/-- A text with its backslashes resolved. -/
def unescape : List Char → Option (List Char)
  | [] => some []
  | '\\' :: a :: rest =>
    if a.isDigit then
      match rest with
      | b :: c :: rest =>
        if b.isDigit && c.isDigit then
          (unescape rest).map
            (Char.ofNat ((a.toNat - 48) * 100 + (b.toNat - 48) * 10 + (c.toNat - 48)) :: ·)
        else none
      | _ => none
    else (unescape rest).map (a :: ·)
  | ['\\'] => none
  | c :: rest => (unescape rest).map (c :: ·)

/-- The label that a text spells. -/
def label? (text : String) : Option (List Char) :=
  (unescape text.toList).filter fun label =>
    !label.isEmpty && label.length ≤ maxLabel && label.all allowed

/-- The labels of a name. -/
def labels? (name : String) : Option (List (List Char)) :=
  if name = "." then some []
  else
    let parts := name.splitOn "."
    let parts := if parts.getLast? = some "" then parts.dropLast else parts
    parts.mapM label?

/-- The length of a name of given labels, its last dot not counted. -/
def length : List (List Char) → Nat
  | [] => 0
  | [label] => label.length
  | label :: rest => label.length + 1 + length rest

/-- Whether a text can be the name of a host. -/
def isValid (name : String) : Bool :=
  !name.isEmpty && (labels? name).any fun labels =>
    length labels ≤ maxLength && labels.head?.bind (·.head?) != some '-'

end HostName

end ForwardIntake
