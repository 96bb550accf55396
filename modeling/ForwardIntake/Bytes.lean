/-!
# Byte strings

What travels on a connection, seen as a list of bytes.  Lengths and integers on the wire are
big-endian words of a fixed width: `bigEndian w n` writes one and `toNat` reads it, with
`toNat_bigEndian` as their round trip.  A payload is taken off the front by `split?`, which gives
all of it or nothing (`split?_eq`).
-/

namespace ForwardIntake

/-- A byte string. -/
abbrev Bytes := List UInt8

namespace Bytes

/-! ### Big-endian words -/

/-- The number whose big-endian digits to the base 256 are the given bytes. -/
def toNat (b : Bytes) : Nat :=
  b.foldl (fun n byte => n * 256 + byte.toNat) 0

/-- The `w` big-endian bytes of `n`; higher digits are dropped. -/
def bigEndian : Nat → Nat → Bytes
  | 0, _ => []
  | w + 1, n => bigEndian w (n / 256) ++ [UInt8.ofNat (n % 256)]

/-- How many words of `w` bytes there are. -/
def wordCount : Nat → Nat
  | 0 => 1
  | w + 1 => 256 * wordCount w

@[simp] theorem length_bigEndian (w n : Nat) : (bigEndian w n).length = w := by
  induction w generalizing n with
  | zero => rfl
  | succ w ih => simp [bigEndian, ih]

/-- One more byte at the end is one more digit. -/
theorem toNat_append_singleton (b : Bytes) (byte : UInt8) :
    toNat (b ++ [byte]) = toNat b * 256 + byte.toNat := by
  simp [toNat, List.foldl_append]

/-- Of a number that does not fit `w` bytes, its lower digits are read back. -/
private theorem toNat_bigEndian (w n : Nat) : toNat (bigEndian w n) = n % wordCount w := by
  induction w generalizing n with
  | zero => simp [bigEndian, toNat, wordCount, Nat.mod_one]
  | succ w ih =>
    have byte : (UInt8.ofNat (n % 256)).toNat = n % 256 := by
      simp
    rw [bigEndian, toNat_append_singleton, ih, byte, wordCount, Nat.mod_mul]
    omega

/-- A number that fits `w` bytes is read back from them. -/
theorem toNat_bigEndian_of_lt {w n : Nat} (h : n < wordCount w) : toNat (bigEndian w n) = n := by
  rw [toNat_bigEndian, Nat.mod_eq_of_lt h]

/-! ### Taking bytes off the front -/

/-- Moves `n` bytes from the front of the second list onto the reversed first one. -/
def splitOnto? : Nat → Bytes → Bytes → Option (Bytes × Bytes)
  | 0, front, rest => some (front.reverse, rest)
  | _ + 1, _, [] => none
  | n + 1, front, byte :: rest => splitOnto? n (byte :: front) rest

/-- The first `n` bytes and what follows them, if there are that many. -/
def split? (n : Nat) (b : Bytes) : Option (Bytes × Bytes) :=
  splitOnto? n [] b

/-- The bytes moved over are those at the front, in their order. -/
private theorem splitOnto?_eq (n : Nat) (front b : Bytes) :
    splitOnto? n front b =
      if n ≤ b.length then some (front.reverse ++ b.take n, b.drop n) else none := by
  induction n generalizing front b with
  | zero => simp [splitOnto?]
  | succ n ih =>
    cases b with
    | nil => simp [splitOnto?]
    | cons byte rest => simp [splitOnto?, ih]

/-- `split?` gives all `n` bytes, or nothing when there are fewer. -/
theorem split?_eq (n : Nat) (b : Bytes) :
    split? n b = if n ≤ b.length then some (b.take n, b.drop n) else none := by
  simp [split?, splitOnto?_eq]

/-- What stands at the front is split off again. -/
@[simp] theorem split?_append (front rest : Bytes) :
    split? front.length (front ++ rest) = some (front, rest) := by
  simp [split?_eq]

/-- What was split off and what is left make up the bytes. -/
theorem append_of_split? {n : Nat} {b front rest : Bytes}
    (h : split? n b = some (front, rest)) : b = front ++ rest ∧ front.length = n := by
  rw [split?_eq] at h
  split at h
  case isTrue hn =>
    obtain ⟨rfl, rfl⟩ := Prod.mk.inj (Option.some.inj h)
    exact ⟨(List.take_append_drop n b).symm, by simp [Nat.min_eq_left hn]⟩
  case isFalse => cases h

/-- Splitting leaves no more bytes than there were. -/
theorem length_le_of_split? {n : Nat} {b front rest : Bytes}
    (h : split? n b = some (front, rest)) : rest.length ≤ b.length := by
  obtain ⟨rfl, -⟩ := append_of_split? h
  simp

/-! ### Separators -/

/-- The bytes that may stand between two messages: space, tab, line feed, form feed and carriage
return. -/
def isSeparator (byte : UInt8) : Bool :=
  byte == 0x20 || byte == 0x09 || byte == 0x0A || byte == 0x0C || byte == 0x0D

end Bytes

end ForwardIntake
