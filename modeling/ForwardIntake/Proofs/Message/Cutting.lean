import ForwardIntake.Proofs.Json.Extension
import ForwardIntake.Proofs.Message.Extension

/-!
# Messages that are cut off

A buffer may end anywhere inside of a message, and more bytes may follow the message.

* What the decoder has decided on MessagePack stays decided, and a message of it is incomplete
  wherever it is cut (`decode_stable`).
* A JSON message is incomplete wherever it is cut, but for one kind of cut: behind the digits of a
  number that are out of range on their own and are brought back into range by the exponent behind
  the cut.  There the message is refused (`cut_incomplete_or_overruns`, `cut_refused`).
-/

namespace ForwardIntake

namespace Message

variable {b : Bytes} {first : UInt8} {rest : Bytes} {set : RecordSet} {n k : Nat}

/-! ### The bytes before a cut -/

/-- A cut behind the first byte of a message leaves that byte. -/
private theorem exists_body_take (h : body b = first :: rest) (hk : (separators b).length < k) :
    ∃ tail, body (b.take k) = first :: tail := by
  have hne : body (b.take k) ≠ [] := by
    intro hnil
    have hlong := length_separators_append_of_body_eq_nil hnil (b.drop k)
    have hlength := congrArg List.length (separators_append_body b)
    rw [List.take_append_drop, List.length_take] at hlong
    rw [h, List.length_append, List.length_cons] at hlength
    omega
  obtain ⟨first', tail, hcons⟩ := List.exists_cons_of_ne_nil hne
  have hbody := body_append hne (b.drop k)
  rw [List.take_append_drop, h, hcons] at hbody
  obtain rfl : first = first' := (List.cons.inj hbody).1
  exact ⟨tail, hcons⟩

/-- No value can be read before the end of a message. -/
private theorem read_take_ne_done (h : decode b = .message set n) (hlt : k < n)
    (hbody : body (b.take k) = first :: rest) (v : Value) (after : Bytes) :
    (Codec.sniff first).read (body (b.take k)) ≠ .done v after := by
  intro hread
  have hne : body (b.take k) ≠ [] := by simp [hbody]
  have hwhole := body_append hne (b.drop k)
  have hmore := read_append_of_done hbody hread (b.drop k)
  have hcons : body (b.take k ++ b.drop k) = first :: (rest ++ b.drop k) := by
    rw [hwhole, hbody, List.cons_append]
  -- the same value would be the value of the whole message
  have hcut : decode (b.take k) = decodingOf (b.take k) v after := by
    rw [decode_of_cons hbody, hread]
  have hall : decode (b.take k ++ b.drop k) = decodingOf (b.take k) v after := by
    rw [decode_of_cons hcons, hwhole, hmore]
    exact decodingOf_append (b.take k) (b.drop k) v after
  rw [List.take_append_drop, h] at hall
  rw [← hall] at hcut
  have hconsumed := (consumed_decode (congrArg Decoding.sets? hcut)).2
  rw [hcut, Decoding.consumed_message, List.length_take] at hconsumed
  omega

/-! ### MessagePack -/

/-- What MessagePack is refused for, it is refused for whatever follows. -/
private theorem decode_append_of_refused {e : DecodeError} (hbody : body b = first :: rest)
    (codec : Codec.sniff first = .messagePack) (h : decode b = .refused e) (more : Bytes) :
    decode (b ++ more) = .refused e := by
  have hne : body b ≠ [] := by simp [hbody]
  have hmore := body_append_of_cons hbody more
  rw [decode_of_cons hbody] at h
  rw [decode_of_cons hmore, body_append hne]
  cases hread : (Codec.sniff first).read (body b) with
  | incomplete =>
    rw [hread] at h
    cases h
  | done v after =>
    rw [hread] at h
    rw [read_append_of_done hbody hread]
    exact (decodingOf_append b more v after).trans h
  | failed error =>
    rw [hread] at h
    rw [codec] at hread ⊢
    obtain ⟨e', hfailed, rfl⟩ := Reading.mapError_eq_failed_iff.1 hread
    have hsame := (MessagePack.steady_value MessagePack.maxDepth).failed hfailed more
    have hread' : Codec.messagePack.read (body b ++ more) = .failed (.messagePack e') :=
      Reading.mapError_eq_failed_iff.2 ⟨e', hsame, rfl⟩
    rw [hread']
    exact h

/-- A MessagePack message is incomplete wherever it is cut. -/
private theorem decode_take_of_messagePack (hbody : body b = first :: rest)
    (codec : Codec.sniff first = .messagePack) (h : decode b = .message set n)
    (hk : (separators b).length < k) (hlt : k < n) : decode (b.take k) = .incomplete := by
  obtain ⟨tail, hcut⟩ := exists_body_take hbody hk
  have hdecode := decode_of_cons hcut
  cases hread : (Codec.sniff first).read (body (b.take k)) with
  | incomplete => rw [hdecode, hread]
  | done v after => exact absurd hread (read_take_ne_done h hlt hcut v after)
  | failed error =>
    rw [hread] at hdecode
    have hall := decode_append_of_refused hcut codec hdecode (b.drop k)
    rw [List.take_append_drop, h] at hall
    cases hall

/-- **Decoding is stable.**  A message of either codec is the same message whatever follows it.
What MessagePack is refused for, it is refused for whatever follows; and a MessagePack message that
is cut behind its first byte is incomplete. -/
theorem decode_stable (b rest : Bytes) :
    (∀ set n, decode b = .message set n → decode (b ++ rest) = .message set n) ∧
      ∀ first tail, body b = first :: tail → Codec.sniff first = .messagePack →
        (∀ e, decode b = .refused e → decode (b ++ rest) = .refused e) ∧
          ∀ set n k, decode b = .message set n → (separators b).length < k → k < n →
            decode (b.take k) = .incomplete :=
  ⟨fun _ _ h => decode_append_of_message h rest, fun _ _ hbody codec =>
    ⟨fun _ h => decode_append_of_refused hbody codec h rest,
      fun _ _ _ h hk hlt => decode_take_of_messagePack hbody codec h hk hlt⟩⟩

/-- An event with a separator before it, cut inside of its tag, and something else behind it. -/
theorem decode_stable_event :
    let b : Bytes := [0x20, 0x93, 0xA1, 0x61, 0x10, 0x80]
    (∃ set, decode b = .message set 6 ∧ decode (b ++ [0xC1]) = .message set 6) ∧
      decode (b.take 3) = .incomplete ∧
      ∃ e, decode [0x93, 0xC1] = .refused e ∧ decode ([0x93, 0xC1] ++ [0x00]) = .refused e := by
  intro b
  obtain ⟨set, hset⟩ : ∃ set, decode b = .message set 6 := ⟨_, by with_unfolding_all rfl⟩
  obtain ⟨e, he⟩ : ∃ e, decode [0x93, 0xC1] = .refused e := ⟨_, by with_unfolding_all rfl⟩
  obtain ⟨hmessage, hcodec⟩ := decode_stable b [0xC1]
  obtain ⟨-, hrefused⟩ := decode_stable [0x93, 0xC1] [0x00]
  exact ⟨⟨set, hset, hmessage set 6 hset⟩,
    (hcodec 0x93 _ rfl rfl).2 set 6 3 hset (by decide) (by decide),
    e, he, (hrefused 0x93 _ rfl rfl).1 e he⟩

/-! ### JSON -/

/-- **Where a JSON message may be cut.**  Behind any of its bytes it is incomplete, unless the bytes
up to the cut end with a number that is out of range on its own.  There the message is refused, and
what follows the cut brings the number back into range. -/
theorem cut_incomplete_or_overruns (hfirst : b.head? = some 0x5B) (h : decode b = .message set n)
    (hk : 0 < k) (hlt : k < n) :
    (decode (b.take k) = .incomplete ∧ ∀ negative token,
        ¬Json.Overruns negative token (Json.reader Json.maxDepth).run (b.take k)) ∨
      ∃ negative token, Json.Overruns negative token (Json.reader Json.maxDepth).run (b.take k) ∧
        (∃ v rest, Json.number negative (token ++ b.drop k) = .done v rest) ∧
        decode (b.take k) = .refused (.codec (.json
          (Json.Failure.locate (b.take k) ⟨.numberOutOfRange, []⟩))) := by
  obtain ⟨tail, rfl⟩ := List.head?_eq_some_iff.1 hfirst
  obtain ⟨k, rfl⟩ := Nat.exists_eq_succ_of_ne_zero (Nat.ne_of_gt hk)
  have hbody : ∀ tail', body (0x5B :: tail') = 0x5B :: tail' := fun _ => rfl
  have hcodec : Codec.sniff 0x5B = .json := rfl
  obtain ⟨first, rest, v, after, hcons, hread, -⟩ := exists_read_of_message h
  obtain ⟨rfl, rfl⟩ := List.cons.inj ((hbody tail).symm.trans hcons)
  have hcut := hbody (tail.take k)
  have hnone := read_take_ne_done h hlt hcut
  rw [List.take_succ_cons] at hnone ⊢
  rw [hcodec, hcut] at hnone
  rw [hcodec, hbody, ← List.take_append_drop (k + 1) (0x5B :: tail), List.take_succ_cons] at hread
  have hdone := Reading.mapError_eq_done_iff.1 hread
  rw [decode_of_cons hcut, hcodec, hcut, Codec.read_json]
  refine (Json.read_cut hdone fun w rest hw => hnone w rest ?_).imp ?_ ?_
  · exact Reading.mapError_eq_done_iff.2 hw
  · rintro ⟨hincomplete, hnever⟩
    rw [hincomplete]
    exact ⟨rfl, hnever⟩
  · rintro ⟨negative, token, hoverruns, hnumber, hfailed⟩
    rw [hfailed]
    exact ⟨negative, token, hoverruns, hnumber, rfl⟩

/-- An event that is cut behind its time. -/
theorem cut_incomplete_or_overruns_event :
    let b : Bytes := [0x5B, 0x22, 0x61, 0x22, 0x2C, 0x31, 0x2C, 0x7B, 0x7D, 0x5D]
    (∃ set, decode b = .message set 10) ∧ decode (b.take 6) = .incomplete ∧
      ∀ negative token,
        ¬Json.Overruns negative token (Json.reader Json.maxDepth).run (b.take 6) := by
  intro b
  obtain ⟨set, hset⟩ : ∃ set, decode b = .message set 10 := ⟨_, by with_unfolding_all rfl⟩
  have hincomplete : decode (b.take 6) = .incomplete := by with_unfolding_all rfl
  refine ⟨⟨set, hset⟩, ?_⟩
  rcases cut_incomplete_or_overruns rfl hset (show 0 < 6 by decide) (by decide) with
    hcut | ⟨negative, token, -, -, hcut⟩
  · exact hcut
  · rw [hincomplete] at hcut
    cases hcut

/-- **A message that is refused where it is cut.**  Its second item is ten to the power of 309 with
an exponent that brings it down to ten to the power of nine, and the cut is in front of the
exponent. -/
theorem cut_refused :
    let b : Bytes := [0x5B, 0x22, 0x22, 0x2C] ++ Json.beyondFloats ++
      [0x65, 0x2D, 0x33, 0x30, 0x30, 0x2C, 0x7B, 0x7D, 0x5D]
    b.head? = some 0x5B ∧ (∃ set, decode b = .message set 323) ∧
      decode (b.take 314) = .refused (.codec (.json ⟨.numberOutOfRange, 1, 314⟩)) := by
  intro b
  have hcodec : Codec.sniff 0x5B = .json := rfl
  have hfront : ([0x5B, 0x22, 0x22, 0x2C] ++ Json.beyondFloats).length = 314 := by
    rw [List.length_append, Json.length_beyondFloats]
    rfl
  refine ⟨rfl, ?_, ?_⟩
  · have hbody : body b = 0x5B :: ([0x22, 0x22, 0x2C] ++ Json.beyondFloats ++
        [0x65, 0x2D, 0x33, 0x30, 0x30, 0x2C, 0x7B, 0x7D, 0x5D]) := rfl
    have hlength : b.length = 323 := by
      rw [List.length_append, hfront]
      rfl
    have hread : Codec.json.read (body b) =
        .done (.array [.text "", .float ⟨0x41CDCD6500000000⟩, .map []]) [] :=
      Reading.mapError_eq_done_iff.2 (Reading.mapError_eq_done_iff.2 Json.reader_run_beyondFloats)
    rw [decode_of_cons hbody, hcodec, hread]
    simp only [decodingOf, hlength]
    exact ⟨_, by with_unfolding_all rfl⟩
  · have htake : b.take 314 = [0x5B, 0x22, 0x22, 0x2C] ++ Json.beyondFloats :=
      List.take_left' hfront
    have hbody : body ([0x5B, 0x22, 0x22, 0x2C] ++ Json.beyondFloats) =
        0x5B :: ([0x22, 0x22, 0x2C] ++ Json.beyondFloats) := rfl
    have hplace : Json.Failure.locate ([0x5B, 0x22, 0x22, 0x2C] ++ Json.beyondFloats)
        ⟨.numberOutOfRange, []⟩ = ⟨.numberOutOfRange, 1, 314⟩ := by
      decide +kernel
    have hread : Codec.json.read (body ([0x5B, 0x22, 0x22, 0x2C] ++ Json.beyondFloats)) =
        .failed (.json ⟨.numberOutOfRange, 1, 314⟩) := by
      have hrun := Json.overruns_beyondFloats.eq_failed
      exact Reading.mapError_eq_failed_iff.2 ⟨_,
        Reading.mapError_eq_failed_iff.2 ⟨_, hrun, hplace⟩, rfl⟩
    rw [htake, decode_of_cons hbody, hcodec, hread]

end Message

end ForwardIntake
