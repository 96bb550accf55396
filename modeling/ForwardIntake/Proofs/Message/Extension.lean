import ForwardIntake.Proofs.Message.Framing
import ForwardIntake.Proofs.MessagePack.Extension

/-!
# Decoding with more bytes around

What the decoder makes of a buffer does not depend on what arrives later, once the scanner has found
a frame (`decode_append_of_found`), and a message is decoded as soon as all of its bytes are there
(`decode_of_append_message`).  Separators before a message only lengthen it
(`decode_append_separators`).

A number at the very end of a buffer is why the scanner has to have found a frame: it may be out of
range there, and be none when more of its digits arrive.
-/

namespace ForwardIntake

/-- The decoding of a buffer with `k` separators before it. -/
def Decoding.shift (k : Nat) : Decoding → Decoding
  | .incomplete => .incomplete
  | .separators n => .separators (n + k)
  | .message set n => .message set (n + k)
  | .refused error => .refused error

namespace Message

open ForwardIntake.Frame Scanner

variable {b more : Bytes} {first : UInt8} {rest : Bytes}

/-! ### More bytes behind -/

/-- Bytes behind the message do not change what it comes to. -/
theorem decodingOf_append (b more : Bytes) (v : Value) (after : Bytes) :
    decodingOf (b ++ more) v (after ++ more) = decodingOf b v after := by
  rw [decodingOf, decodingOf, List.length_append, List.length_append, Nat.add_sub_add_right]

/-- **A value is read from its own bytes**, and what follows them has no influence. -/
private theorem exists_front_of_read {v : Value} {after : Bytes} (h : body b = first :: rest)
    (hread : (Codec.sniff first).read (body b) = .done v after) :
    ∃ front, body b = front ++ after ∧
      ∀ more, (Codec.sniff first).read (front ++ more) = .done v more := by
  cases codec : Codec.sniff first with
  | messagePack =>
    rw [codec] at hread
    obtain ⟨front, hfront, hsame⟩ :=
      MessagePack.value_eq_done_append (Reading.mapError_eq_done_iff.1 hread)
    exact ⟨front, hfront, fun more => Reading.mapError_eq_done_iff.2 (hsame more)⟩
  | json =>
    rw [codec, h] at hread
    have hopening : Json.isOpening first := (Codec.sniff_eq_json_iff.1 codec).symm
    obtain ⟨front, hfront, -, hsame⟩ :=
      Json.read_eq_done hopening (Reading.mapError_eq_done_iff.1 hread)
    exact ⟨front, h.trans hfront, fun more => Reading.mapError_eq_done_iff.2 (hsame more)⟩

/-- A value that was read is read whatever follows it. -/
theorem read_append_of_done {v : Value} {after : Bytes} (h : body b = first :: rest)
    (hread : (Codec.sniff first).read (body b) = .done v after) (more : Bytes) :
    (Codec.sniff first).read (body b ++ more) = .done v (after ++ more) := by
  obtain ⟨front, hfront, hsame⟩ := exists_front_of_read h hread
  rw [hfront, List.append_assoc]
  exact hsame (after ++ more)

/-- An error of a codec is found whatever follows, if the scanner has found a frame. -/
private theorem read_append_of_failed {error : CodecError} (h : body b = first :: rest)
    (found : (frameOf b).isIncomplete = false)
    (hread : (Codec.sniff first).read (body b) = .failed error) (more : Bytes) :
    (Codec.sniff first).read (body b ++ more) = .failed error := by
  cases codec : Codec.sniff first with
  | messagePack =>
    rw [codec] at hread
    obtain ⟨e, hfailed, rfl⟩ := Reading.mapError_eq_failed_iff.1 hread
    have hmore := (MessagePack.steady_value MessagePack.maxDepth).failed hfailed more
    exact Reading.mapError_eq_failed_iff.2 ⟨e, hmore, rfl⟩
  | json =>
    rw [codec, h] at hread
    have hopening : Json.isOpening first := (Codec.sniff_eq_json_iff.1 codec).symm
    obtain ⟨e, hfailed, rfl⟩ := Reading.mapError_eq_failed_iff.1 hread
    rcases Json.read_eq_failed hopening hfailed with hsame | ⟨s', hopen⟩
    · rw [h]
      exact Reading.mapError_eq_failed_iff.2 ⟨e, hsame more, rfl⟩
    · rw [frameOf_of_json h codec, h, BracketWalk.advance_of_over? _ (hopen _)] at found
      cases found

/-- **What was decided on a frame stays decided.** -/
theorem decode_append_of_found (hbody : body b ≠ []) (found : (frameOf b).isIncomplete = false)
    (h : decode b ≠ .incomplete) (more : Bytes) : decode (b ++ more) = decode b := by
  obtain ⟨first, rest, hcons⟩ := List.exists_cons_of_ne_nil hbody
  have hmore := body_append_of_cons hcons more
  have hdecode := decode_of_cons hcons
  rw [decode_of_cons hmore, body_append hbody]
  cases hread : (Codec.sniff first).read (body b) with
  | incomplete =>
    rw [hread] at hdecode
    exact absurd hdecode h
  | failed error =>
    rw [hread] at hdecode
    rw [read_append_of_failed hcons found hread, hdecode]
  | done v after =>
    rw [hread] at hdecode
    rw [read_append_of_done hcons hread, hdecode]
    exact decodingOf_append b more v after

/-- **A message stays** when more bytes follow. -/
theorem decode_append_of_message {set : RecordSet} {n : Nat} (h : decode b = .message set n)
    (more : Bytes) : decode (b ++ more) = .message set n := by
  obtain ⟨first, rest, v, after, hbody, hread, hset⟩ := exists_read_of_message h
  have hne : body b ≠ [] := body_ne_nil_of_message h
  have hmore := body_append_of_cons hbody more
  rw [decode_of_cons hmore, body_append hne, read_append_of_done hbody hread, ← hset]
  exact decodingOf_append b more v after

/-- **A message is decoded as soon as its bytes are there.** -/
theorem decode_of_append_message {set : RecordSet} {n : Nat}
    (h : decode (b ++ more) = .message set n) (hn : n ≤ b.length) : decode b = .message set n := by
  obtain ⟨first, rest, v, after, hwhole, hread, hset⟩ := exists_read_of_message h
  obtain ⟨front, hfront, hsame⟩ := exists_front_of_read hwhole hread
  have hconsumed := decodingOf_eq_message hset
  have hprogress := Codec.read_progress hread
  have hlength := congrArg List.length (separators_append_body (b ++ more))
  rw [hfront] at hprogress hlength
  simp only [List.length_append] at hprogress hlength hconsumed
  have hbody : body b ≠ [] := by
    intro hnil
    have := length_separators_append_of_body_eq_nil hnil more
    omega
  rw [separators_append hbody] at hlength
  -- all that was read of the message lies in `b`
  have hinside : front <+: body b := by
    have hsplit := congrArg List.length (separators_append_body b)
    rw [List.length_append] at hsplit
    refine List.prefix_of_prefix_length_le (List.prefix_append front after) ?_ (by omega)
    rw [← hfront, body_append hbody]
    exact List.prefix_append _ more
  obtain ⟨tail, htail⟩ := hinside
  have hafter : after = tail ++ more := by
    rw [body_append hbody, ← htail, List.append_assoc] at hfront
    exact (List.append_cancel_left hfront).symm
  obtain ⟨first', rest', hcons⟩ := List.exists_cons_of_ne_nil hbody
  have hfirst : first :: rest = first' :: (rest' ++ more) := by
    rw [← hwhole, body_append_of_cons hcons]
  rw [decode_of_cons hcons, ← (List.cons.inj hfirst).1, ← htail, hsame, ← hset, hafter]
  exact (decodingOf_append b more v tail).symm

/-! ### Separators before -/

/-- Separators ahead of a message move what it comes to. -/
private theorem decodingOf_append_separators {blank after : Bytes} {v : Value}
    (h : after.length ≤ b.length) :
    decodingOf (blank ++ b) v after = (decodingOf b v after).shift blank.length := by
  have hlength : (blank ++ b).length - after.length = b.length - after.length + blank.length := by
    rw [List.length_append]
    omega
  simp only [decodingOf, hlength]
  split
  · rfl
  · rfl

/-- **Separators before a message** are used up with it. -/
theorem decode_append_separators {blank : Bytes} (hblank : body blank = []) (hbody : body b ≠ []) :
    decode (blank ++ b) = (decode b).shift blank.length := by
  obtain ⟨first, rest, hcons⟩ := List.exists_cons_of_ne_nil hbody
  have hsame : body (blank ++ b) = body b := body_append_of_body_eq_nil hblank b
  rw [decode_of_cons (hsame.trans hcons), decode_of_cons hcons, hsame]
  cases hread : (Codec.sniff first).read (body b) with
  | incomplete => rfl
  | failed error => rfl
  | done v after =>
    have hafter := Codec.read_progress hread
    exact decodingOf_append_separators
      (Nat.le_trans (Nat.le_of_lt hafter) (length_body_le b))

end Message

end ForwardIntake
