import ForwardIntake.Record

/-!
# Counters

What all sessions of one input have done so far.  The counters are words of 64 bits.
-/

namespace ForwardIntake

/-- The counters of an input. -/
structure Stats where
  /-- The clients accepted. -/
  accepted : UInt64
  /-- The record sets decoded. -/
  entries : UInt64
  /-- The records decoded. -/
  records : UInt64
  /-- The bytes read. -/
  bytes : UInt64
  deriving DecidableEq, Repr, Inhabited

namespace Stats

/-- Nothing has happened yet. -/
def zero : Stats :=
  ⟨0, 0, 0, 0⟩

/-- Counts one more client. -/
def countClient (s : Stats) : Stats :=
  { s with accepted := s.accepted + 1 }

/-- Counts decoded record sets and their records. -/
def countSets (sets : List RecordSet) (s : Stats) : Stats :=
  { s with
    entries := s.entries + UInt64.ofNat sets.length
    records := s.records + UInt64.ofNat (Batch.records sets) }

/-- Counts bytes that were read. -/
def countBytes (n : Nat) (s : Stats) : Stats :=
  { s with bytes := s.bytes + UInt64.ofNat n }

/-- Where there are no record sets nothing is counted. -/
@[simp, grind =] theorem countSets_nil (s : Stats) : s.countSets [] = s := by
  cases s
  simp [countSets]

@[simp, grind =] theorem countBytes_zero (s : Stats) : s.countBytes 0 = s := by
  cases s
  simp [countBytes]

end Stats

end ForwardIntake
