import ForwardIntake.Message.Shape

/-!
# Decoding messages

`decode` looks at the front of a buffer for the next message.  Separators before a message belong
to it; a buffer of separators only is used up without a message.  When the message is not complete
yet the answer says so, and more bytes may be appended before asking again.

Every answer that uses up bytes uses up at least one (`Message.consumed_decode`), so a buffer is
drained by decoding for as long as something is used up (`drain`).
-/

namespace ForwardIntake

/-- What decoding the front of a buffer comes to. -/
inductive Decoding where
  /-- More bytes are needed. -/
  | incomplete
  /-- The buffer holds separators only, and all of them are used up. -/
  | separators (consumed : Nat)
  /-- One message, of so many bytes together with the separators before it. -/
  | message (set : RecordSet) (consumed : Nat)
  /-- The message is refused. -/
  | refused (error : DecodeError)
  deriving Repr

namespace Message

/-- The separators at the front of a buffer. -/
def separators (b : Bytes) : Bytes :=
  b.takeWhile Bytes.isSeparator

/-- What follows the separators at the front of a buffer. -/
def body (b : Bytes) : Bytes :=
  b.dropWhile Bytes.isSeparator

/-- Decodes the next message at the front of a buffer. -/
def decode (b : Bytes) : Decoding :=
  match body b with
  | [] => if b = [] then .incomplete else .separators b.length
  | first :: rest =>
    match (Codec.sniff first).read (first :: rest) with
    | .incomplete => .incomplete
    | .failed error => .refused (.codec error)
    | .done value after =>
      match RecordSet.ofValue value with
      | .ok set => .message set (b.length - after.length)
      | .error error => .refused error

end Message

namespace Decoding

/-- How many bytes are used up. -/
def consumed : Decoding → Nat
  | .incomplete => 0
  | .separators n => n
  | .message _ n => n
  | .refused _ => 0

/-- The record sets that are handed on, if the decoding used up any bytes. -/
def sets? : Decoding → Option (List RecordSet)
  | .separators _ => some []
  | .message set _ => some [set]
  | _ => none

section Answers

variable (n : Nat) (set : RecordSet) (error : DecodeError)

@[simp, grind =] theorem consumed_incomplete : incomplete.consumed = 0 :=
  rfl

@[simp, grind =] theorem consumed_separators : (separators n).consumed = n :=
  rfl

@[simp, grind =] theorem consumed_message : (message set n).consumed = n :=
  rfl

@[simp, grind =] theorem consumed_refused : (refused error).consumed = 0 :=
  rfl

@[simp, grind =] theorem sets?_incomplete : incomplete.sets? = none :=
  rfl

@[simp, grind =] theorem sets?_separators : (separators n).sets? = some [] :=
  rfl

@[simp, grind =] theorem sets?_message : (message set n).sets? = some [set] :=
  rfl

@[simp, grind =] theorem sets?_refused : (refused error).sets? = none :=
  rfl

end Answers

end Decoding

namespace Message

/-- The body is a part of the buffer. -/
theorem length_body_le (b : Bytes) : (body b).length ≤ b.length :=
  (List.dropWhile_sublist Bytes.isSeparator).length_le

/-- A decoding that hands on record sets uses up at least one byte, and no more than there are. -/
theorem consumed_decode {b : Bytes} {sets : List RecordSet} (h : (decode b).sets? = some sets) :
    0 < (decode b).consumed ∧ (decode b).consumed ≤ b.length := by
  have le := length_body_le b
  simp only [decode] at h ⊢
  generalize body b = content at h le ⊢
  cases content with
  | nil =>
    simp only at h ⊢
    split at h
    · cases h
    · rename_i ne
      rw [if_neg ne]
      exact ⟨List.length_pos_iff.2 ne, Nat.le_refl _⟩
  | cons first rest =>
    simp only at h ⊢
    split at h
    · cases h
    · cases h
    · rename_i value after done
      have := Codec.read_progress done
      split at h
      · simp only [Decoding.consumed_message, *]
        omega
      · cases h

/-! ### Draining -/

/-- All answers from decoding a buffer again and again, behind what was used up before, until
nothing is used up any more; and the number of bytes used up in all. -/
def drain (b : Bytes) : List Decoding × Nat :=
  match h : (decode b).sets? with
  | none => ([decode b], 0)
  | some _ =>
    have := consumed_decode h
    let (steps, used) := drain (b.drop (decode b).consumed)
    (decode b :: steps, (decode b).consumed + used)
termination_by b.length
decreasing_by simp only [List.length_drop]; omega

end Message

end ForwardIntake
