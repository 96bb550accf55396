/-!
# Natural numbers as people give them

Digits of a base, and decimal digits, perhaps behind a plus, without any space.  There may be zeros
in front.
-/

namespace ForwardIntake

namespace Natural

/-- The value of a digit of a base up to sixteen, in either case. -/
def digit? (base : Nat) (c : Char) : Option Nat :=
  let n := c.toNat
  let value :=
    if 48 ≤ n ∧ n ≤ 57 then some (n - 48)
    else if 65 ≤ n ∧ n ≤ 70 then some (n - 55)
    else if 97 ≤ n ∧ n ≤ 102 then some (n - 87)
    else none
  value.filter (· < base)

/-- The number that digits spell behind the number `n`; none if there is anything else. -/
def digitsFrom (base n : Nat) : List Char → Option Nat
  | [] => some n
  | c :: rest =>
    match digit? base c with
    | some d => digitsFrom base (n * base + d) rest
    | none => none

/-- The number that digits of a base spell, if there is a digit and nothing else. -/
def digits? (base : Nat) (cs : List Char) : Option Nat :=
  if cs.isEmpty then none else digitsFrom base 0 cs

/-- The number below `bound` that a text spells in decimal digits. -/
def below? (bound : Nat) (s : String) : Option Nat :=
  let cs := match s.toList with
    | '+' :: rest => rest
    | cs => cs
  (digits? 10 cs).filter (· < bound)

end Natural

end ForwardIntake
