import ForwardIntake.Bytes

/-!
# Frames

Messages carry no length, so where one ends is found by walking over its structure.  A `Frame` is
what such a walk says about the message at the front of a buffer.  Positions and counts in a walk
are words of 64 bits that stop at the greatest word instead of wrapping round (`satAdd`).
-/

namespace ForwardIntake

/-- Where the message at the front of a buffer ends. -/
inductive Frame where
  /-- The first `length` bytes are one whole message, or separators only. -/
  | complete (length : Nat)
  /-- The buffer must grow to at least `needed` bytes. -/
  | incomplete (needed : Nat)
  /-- The bytes cannot form a message. -/
  | invalid
  deriving DecidableEq, Repr

namespace Frame

/-- Whether the walk that found the frame goes on when more bytes arrive. -/
def isIncomplete : Frame → Bool
  | .incomplete _ => true
  | _ => false

@[simp, grind =] theorem isIncomplete_complete (length : Nat) :
    (complete length).isIncomplete = false := rfl

@[simp, grind =] theorem isIncomplete_incomplete (needed : Nat) :
    (incomplete needed).isIncomplete = true := rfl

@[simp, grind =] theorem isIncomplete_invalid : invalid.isIncomplete = false :=
  rfl

/-- The greatest word. -/
def wordMax : Nat := 0xFFFFFFFFFFFFFFFF

/-- The sum of two words, or the greatest word. -/
def satAdd (a b : Nat) : Nat :=
  min (a + b) wordMax

/-- Sums in reach are exact. -/
theorem satAdd_of_le {a b : Nat} (h : a + b ≤ wordMax) : satAdd a b = a + b :=
  Nat.min_eq_left h

end Frame

end ForwardIntake
