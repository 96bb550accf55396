import ForwardIntake.Text.Natural

/-!
# Addresses of the internet

An address of version 4 is a number of 32 bits, one of version 6 a number of 128 bits, which may be
meant on one interface only.  Both have several texts.

Version 4 has one to four parts between dots, each decimal, octal or hexadecimal; the last part
fills all the bytes that remain, so that `127.1` and `0x7f000001` are `127.0.0.1`.  Version 6 has
eight groups of hexadecimal digits between colons, of which one run of zeros is left out at a double
colon, and of which the last two may be written as an address of version 4.
-/

namespace ForwardIntake

/-- An address of the internet. -/
inductive Ip where
  | v4 (number : BitVec 32)
  | v6 (number : BitVec 128)
  deriving DecidableEq, Repr

namespace Ip

/-! ### Version 4 -/

/-- A part of an address of version 4. -/
def part? : List Char → Option Nat
  | '0' :: c :: rest =>
    if c = 'x' ∨ c = 'X' then Natural.digits? 16 rest else Natural.digits? 8 (c :: rest)
  | cs => Natural.digits? 10 cs

/-- The number of so many bytes that is made of parts: each but the last fills one byte, and the
last fills what remains. -/
def join? : Nat → List Nat → Option Nat
  | 0, _ => none
  | _, [] => none
  | bytes, [last] => if last < 1 <<< (8 * bytes) then some last else none
  | bytes + 1, n :: rest =>
    if n < 256 then (join? bytes rest).map ((n <<< (8 * bytes)) + ·) else none

/-- The address of version 4 that a text spells. -/
def v4? (text : String) : Option (BitVec 32) :=
  (((text.splitOn ".").mapM fun part => part? part.toList).bind (join? 4)).map (BitVec.ofNat 32)

/-- The plain text of an address of version 4. -/
def dotted (number : BitVec 32) : String :=
  let n := number.toNat
  ".".intercalate ([n >>> 24, (n >>> 16) % 256, (n >>> 8) % 256, n % 256].map toString)

/-! ### Version 6 -/

/-- A group of an address of version 6. -/
def group? (text : String) : Option Nat :=
  if text.length ≤ 4 then Natural.digits? 16 text.toList else none

/-- The two groups that an address of version 4 in its plain text stands for. -/
def dottedGroups? (text : String) : Option (List Nat) :=
  ((v4? text).filter fun number => dotted number = text).map fun number =>
    [number.toNat >>> 16, number.toNat % 0x10000]

/-- The groups that texts spell, of which the last may be an address of version 4. -/
def groups? : List String → Option (List Nat)
  | [] => some []
  | [last] => ((group? last).map fun n => [n]).or (dottedGroups? last)
  | text :: rest => (group? text).bind fun n => (groups? rest).map (n :: ·)

/-- The groups on one side of a double colon. -/
def side? (text : String) : Option (List Nat) :=
  if text.isEmpty then some [] else groups? (text.splitOn ":")

/-- The eight groups that a text spells. -/
def allGroups? (text : String) : Option (List Nat) :=
  match text.splitOn "::" with
  | [whole] => (side? whole).filter (·.length = 8)
  | [front, back] =>
    if front.contains '.' then none
    else
      (side? front).bind fun a => (side? back).bind fun b =>
        if a.length + b.length < 8 then some (a ++ List.replicate (8 - (a.length + b.length)) 0 ++ b)
        else none
  | _ => none

/-- The address of version 6 that a text spells. -/
def v6? (text : String) : Option (BitVec 128) :=
  (allGroups? text).map fun groups =>
    BitVec.ofNat 128 (groups.foldl (fun n group => n * 0x10000 + group) 0)

/-- The address of version 4 that is wrapped in one of version 6. -/
def mapped? (number : BitVec 128) : Option (BitVec 32) :=
  if number.toNat >>> 32 = 0xFFFF then some (number.setWidth 32) else none

/-- Whether an address of version 6 is that of a group of hosts. -/
def isMulticast (number : BitVec 128) : Bool :=
  number.toNat >>> 120 = 0xFF

/-- Whether an address of version 6 has a meaning on one interface only. -/
def isLinkLocal (number : BitVec 128) : Bool :=
  number.toNat >>> 118 = 0x3FA

/-- Whether an interface can be named behind an address of version 6: it has a meaning on one
interface only, or is that of a group of hosts on one host or one link. -/
def isOnInterface (number : BitVec 128) : Bool :=
  isLinkLocal number ||
    isMulticast number && [1, 2].contains ((number.toNat >>> 112) % 16)

end Ip

end ForwardIntake
