import ForwardIntake.Proofs.Frame.Scanner
import ForwardIntake.Proofs.Json.Reader
import ForwardIntake.Proofs.MessagePack.Walk

/-!
# Frames and decodings

A scanner finds the end of a message without decoding it, and the decoder finds it without the
scanner.  They agree: where a value of either codec is read, the frame ends with it
(`frameOf_of_read`).

* On MessagePack they miss bytes together as well, so neither a frame that is found nor a buffer
  that cannot be framed leaves the decoder waiting (`frameOf_agrees_of_messagePack`).
* On JSON the scanner sees brackets and strings only; a message that the decoder accepts, or refuses
  for its shape, has its frame where the value ends (`frameOf_agrees_of_json`).
-/

namespace ForwardIntake

namespace Codec

/-- JSON begins with a bracket or a brace. -/
theorem sniff_eq_json_iff {first : UInt8} : sniff first = .json ↔ first = 0x5B ∨ first = 0x7B := by
  rw [sniff]
  split
  · rename_i h
    simp only [Bool.or_eq_true, beq_iff_eq] at h
    exact ⟨fun _ => h.symm, fun _ => rfl⟩
  · rename_i h
    simp only [Bool.or_eq_true, beq_iff_eq] at h
    exact ⟨nofun, fun h' => absurd h'.symm h⟩

/-- Any other first byte is taken for MessagePack. -/
theorem sniff_eq_messagePack {first : UInt8} (h : first ≠ 0x5B ∧ first ≠ 0x7B) :
    sniff first = .messagePack := by
  cases hcodec : sniff first with
  | messagePack => rfl
  | json => exact absurd (sniff_eq_json_iff.1 hcodec) (not_or.2 h)

end Codec

namespace Decoding

variable {d : Decoding}

/-- Nothing is taken where more bytes are needed or the message is refused. -/
theorem sets?_eq_none_iff : d.sets? = none ↔ d = .incomplete ∨ ∃ error, d = .refused error := by
  cases d with
  | incomplete => exact ⟨fun _ => .inl rfl, fun _ => rfl⟩
  | refused error => exact ⟨fun _ => .inr ⟨error, rfl⟩, fun _ => rfl⟩
  | separators n => exact ⟨nofun, nofun⟩
  | message set n => exact ⟨nofun, nofun⟩

/-- What is taken is whitespace or one message. -/
theorem sets?_eq_some_iff {sets : List RecordSet} :
    d.sets? = some sets ↔
      (∃ n, d = .separators n ∧ sets = []) ∨ ∃ set n, d = .message set n ∧ sets = [set] := by
  cases d with
  | incomplete => exact ⟨nofun, nofun⟩
  | refused error => exact ⟨nofun, nofun⟩
  | separators n =>
    constructor
    · rintro ⟨⟩
      exact .inl ⟨n, rfl, rfl⟩
    · rintro (⟨_, -, rfl⟩ | ⟨_, _, h, -⟩)
      · rfl
      · cases h
  | message set n =>
    constructor
    · rintro ⟨⟩
      exact .inr ⟨set, n, rfl, rfl⟩
    · rintro (⟨_, h, -⟩ | ⟨_, _, h, rfl⟩)
      · cases h
      · cases h
        rfl

end Decoding

namespace Message

open ForwardIntake.Frame Scanner

variable {b : Bytes} {first : UInt8} {rest : Bytes}

/-! ### What a decoding comes from -/

/-- The decoding of a message whose value was read, with `after` behind it. -/
def decodingOf (b : Bytes) (v : Value) (after : Bytes) : Decoding :=
  match RecordSet.ofValue v with
  | .ok set => .message set (b.length - after.length)
  | .error error => .refused error

/-- Separators alone are taken as such. -/
theorem decode_of_nil (h : body b = []) :
    decode b = if b = [] then .incomplete else .separators b.length := by
  rw [decode, h]

/-- Any other buffer is read by the codec that its first byte tells. -/
theorem decode_of_cons (h : body b = first :: rest) :
    decode b = match (Codec.sniff first).read (body b) with
      | .incomplete => .incomplete
      | .failed error => .refused (.codec error)
      | .done v after => decodingOf b v after := by
  rw [decode, h]
  rfl

/-- The length of a message counts all bytes up to its end. -/
theorem decodingOf_eq_message {v : Value} {after : Bytes} {set : RecordSet} {n : Nat}
    (h : decodingOf b v after = .message set n) : n = b.length - after.length := by
  rw [decodingOf] at h
  split at h
  · cases h
    rfl
  · cases h

/-- Only separators are used up as separators. -/
theorem body_eq_nil_of_separators {n : Nat} (h : decode b = .separators n) :
    body b = [] ∧ n = b.length := by
  cases hbody : body b with
  | nil =>
    rw [decode_of_nil hbody] at h
    split at h
    · cases h
    · cases h
      exact ⟨rfl, rfl⟩
  | cons first rest =>
    rw [decode_of_cons hbody] at h
    split at h
    · cases h
    · cases h
    · rw [decodingOf] at h
      split at h
      · cases h
      · cases h

/-- A message was read as a value. -/
theorem exists_read_of_message {set : RecordSet} {n : Nat} (h : decode b = .message set n) :
    ∃ first rest v after, body b = first :: rest ∧
      (Codec.sniff first).read (body b) = .done v after ∧
        decodingOf b v after = .message set n := by
  cases hbody : body b with
  | nil =>
    rw [decode_of_nil hbody] at h
    split at h
    · cases h
    · cases h
  | cons first rest =>
    rw [decode_of_cons hbody] at h
    cases hread : (Codec.sniff first).read (body b) with
    | incomplete => rw [hread] at h; cases h
    | failed error => rw [hread] at h; cases h
    | done v after =>
      rw [hread] at h
      exact ⟨first, rest, v, after, rfl, hbody ▸ hread, h⟩

/-- A message has a first byte. -/
theorem body_ne_nil_of_message {set : RecordSet} {n : Nat} (h : decode b = .message set n) :
    body b ≠ [] := by
  obtain ⟨first, rest, v, after, hbody, -, -⟩ := exists_read_of_message h
  rw [hbody]
  exact List.cons_ne_nil _ _

/-- What is refused was no value, or it was read as one. -/
private theorem exists_read_of_refused {e : DecodeError} (h : decode b = .refused e) :
    ∃ first rest, body b = first :: rest ∧
      ((∃ error, (Codec.sniff first).read (body b) = .failed error ∧ e = .codec error) ∨
        ∃ v after, (Codec.sniff first).read (body b) = .done v after ∧
          decodingOf b v after = .refused e) := by
  cases hbody : body b with
  | nil =>
    rw [decode_of_nil hbody] at h
    split at h
    · cases h
    · cases h
  | cons first rest =>
    refine ⟨first, rest, rfl, ?_⟩
    rw [decode_of_cons hbody, hbody] at h
    cases hread : (Codec.sniff first).read (first :: rest) with
    | incomplete => rw [hread] at h; cases h
    | failed error =>
      rw [hread] at h
      cases h
      exact .inl ⟨error, rfl, rfl⟩
    | done v after =>
      rw [hread] at h
      exact .inr ⟨v, after, rfl, h⟩

/-- What is refused has a first byte. -/
theorem body_ne_nil_of_refused {e : DecodeError} (h : decode b = .refused e) : body b ≠ [] := by
  obtain ⟨first, rest, hbody, -⟩ := exists_read_of_refused h
  rw [hbody]
  exact List.cons_ne_nil _ _

/-! ### Frames of values -/

/-- The frame of a JSON value ends with the bracket that closes it. -/
theorem frameOf_of_json_read {v : Value} {after : Bytes} (h : body b = first :: rest)
    (codec : Codec.sniff first = .json) (hread : Json.read (body b) = .done v after) :
    frameOf b = .complete (b.length - after.length) := by
  have hlength := congrArg List.length (separators_append_body b)
  have hopening : Json.isOpening first := (Codec.sniff_eq_json_iff.1 codec).symm
  rw [h] at hread
  obtain ⟨front, hfront, hadvance, -⟩ := Json.read_eq_done hopening hread
  rw [h, hfront, List.length_append, List.length_append] at hlength
  have hend : (separators b).length + front.length = b.length - after.length := by omega
  rw [frameOf_of_json h codec, h, hfront, hadvance, hend]

/-- **The frame of a value ends where the reader of its codec stops.** -/
private theorem frameOf_of_read {v : Value} {after : Bytes} (small : b.length < 2 ^ 63)
    (h : body b = first :: rest) (hread : (Codec.sniff first).read (body b) = .done v after) :
    frameOf b = .complete (b.length - after.length) := by
  cases codec : Codec.sniff first with
  | messagePack =>
    have hlength := congrArg List.length (separators_append_body b)
    rw [codec] at hread
    obtain ⟨front, hfront, htrades⟩ :=
      (MessagePack.tracked_value MessagePack.maxDepth).done (Reading.mapError_eq_done_iff.1 hread)
    rw [hfront, List.length_append, List.length_append] at hlength
    have hend : (separators b).length + front.length = b.length - after.length := by omega
    have hexact := htrades b.length (separators b).length 0
    rw [frameOf_of_messagePack h codec small, hfront, hexact, hend, ItemWalk.exact_zero,
      if_neg (by omega)]
  | json =>
    rw [codec] at hread
    exact frameOf_of_json_read h codec (Reading.mapError_eq_done_iff.1 hread)

/-- A message has the frame that its decoding uses up. -/
theorem frameOf_of_message {set : RecordSet} {n : Nat} (small : b.length < 2 ^ 63)
    (h : decode b = .message set n) : frameOf b = .complete n := by
  obtain ⟨first, rest, v, after, hbody, hread, hset⟩ := exists_read_of_message h
  rw [frameOf_of_read small hbody hread, decodingOf_eq_message hset]

/-- Whatever is used up of a buffer has the frame that its decoding uses up. -/
theorem frameOf_of_sets? {sets : List RecordSet} (small : b.length < 2 ^ 63)
    (h : (decode b).sets? = some sets) : frameOf b = .complete (decode b).consumed := by
  obtain ⟨n, hdecode, -⟩ | ⟨set, n, hdecode, -⟩ := Decoding.sets?_eq_some_iff.1 h
  · obtain ⟨hbody, hn⟩ := body_eq_nil_of_separators hdecode
    have hb : b ≠ [] := by
      rintro rfl
      cases hdecode
    rw [frameOf_of_nil hbody, if_neg hb, hdecode, hn]
    rfl
  · rw [frameOf_of_message small hdecode, hdecode]
    rfl

/-- Where MessagePack is cut off the scanner goes on looking. -/
private theorem frameOf_of_read_incomplete (small : b.length < 2 ^ 63) (h : body b = first :: rest)
    (codec : Codec.sniff first = .messagePack)
    (hread : (Codec.sniff first).read (body b) = .incomplete) :
    ∃ needed, frameOf b = .incomplete needed := by
  rw [codec] at hread
  have hplaced : ItemWalk.Placed b.length (separators b).length (body b) := by
    rw [← drop_length_separators b]
    exact ItemWalk.placed_drop b _
  have hstalls := (MessagePack.tracked_value MessagePack.maxDepth).incomplete
    (Reading.mapError_eq_incomplete_iff.1 hread)
  obtain ⟨needed, hexact⟩ := hstalls b.length (separators b).length 0 hplaced
  exact ⟨needed, by rw [frameOf_of_messagePack h codec small, hexact]⟩

/-! ### Agreement -/

/-- On MessagePack the scanner and the decoder miss bytes together, or the codec refuses the bytes,
or the frame is found and the decoder has decided on it. -/
private theorem messagePack_cases (small : b.length < 2 ^ 63) (h : body b = first :: rest)
    (codec : Codec.sniff first = .messagePack) :
    (∃ needed, frameOf b = .incomplete needed ∧ decode b = .incomplete) ∨
      (∃ error, decode b = .refused (.codec (.messagePack error))) ∨
      ∃ n, frameOf b = .complete n ∧
        ((∃ set, decode b = .message set n) ∨ ∃ e, decode b = .refused e) := by
  have hdecode := decode_of_cons h
  cases hread : (Codec.sniff first).read (body b) with
  | incomplete =>
    obtain ⟨needed, hframe⟩ := frameOf_of_read_incomplete small h codec hread
    exact .inl ⟨needed, hframe, by rw [hdecode, hread]⟩
  | failed e =>
    rw [hread] at hdecode
    rw [codec] at hread
    obtain ⟨error, -, rfl⟩ := Reading.mapError_eq_failed_iff.1 hread
    exact .inr (.inl ⟨error, hdecode⟩)
  | done v after =>
    refine .inr (.inr ⟨b.length - after.length, frameOf_of_read small h hread, ?_⟩)
    rw [hdecode, hread]
    simp only [decodingOf]
    split
    · exact .inl ⟨_, rfl⟩
    · exact .inr ⟨_, rfl⟩

/-- **The scanner and the decoder agree on MessagePack.**  A message has the frame that its decoding
uses up; where a frame is found, or there can be none, the decoder does not wait for bytes; and what
is refused for other reasons than its codec has a frame.  On separators alone, and on nothing, they
agree in any case. -/
theorem frameOf_agrees_of_messagePack (b : Bytes) (small : b.length < 2 ^ 63)
    (start : ∀ first rest, body b = first :: rest → first ≠ 0x5B ∧ first ≠ 0x7B) :
    (∀ set n, decode b = .message set n → frameOf b = .complete n) ∧
      (∀ n, frameOf b = .complete n →
        (∃ set, decode b = .message set n) ∨ decode b = .separators n ∨
          ∃ e, decode b = .refused e) ∧
      (frameOf b = .invalid → ∃ e, decode b = .refused e) ∧
      (∀ e, decode b = .refused e → (∀ error, e ≠ .codec (.messagePack error)) →
        ∃ n, frameOf b = .complete n) ∧
      (b ≠ [] → body b = [] →
        frameOf b = .complete b.length ∧ decode b = .separators b.length) ∧
      (b = [] → frameOf b = .incomplete 1 ∧ decode b = .incomplete) := by
  have hmessage : ∀ set n, decode b = .message set n → frameOf b = .complete n :=
    fun set n => frameOf_of_message small
  cases hbody : body b with
  | nil =>
    have hframe := frameOf_of_nil hbody
    have hdecode := decode_of_nil hbody
    by_cases hb : b = []
    · rw [if_pos hb] at hframe hdecode
      rw [hframe, hdecode] at hmessage ⊢
      exact ⟨hmessage, nofun, nofun, nofun, fun h => absurd hb h, fun _ => ⟨rfl, rfl⟩⟩
    · rw [if_neg hb] at hframe hdecode
      rw [hframe, hdecode] at hmessage ⊢
      refine ⟨hmessage, fun n hn => ?_, nofun, nofun, fun _ _ => ⟨rfl, rfl⟩, fun h => absurd h hb⟩
      cases hn
      exact .inr (.inl rfl)
  | cons first rest =>
    have codec := Codec.sniff_eq_messagePack (start first rest hbody)
    have hb : b ≠ [] := by
      rintro rfl
      cases hbody
    refine ⟨hmessage, ?_, ?_, ?_, fun _ => nofun, fun h => absurd h hb⟩
    · intro n hn
      rcases messagePack_cases small hbody codec with
        ⟨needed, hframe, -⟩ | ⟨error, hrefused⟩ | ⟨n', hframe, hdecided⟩
      · rw [hframe] at hn
        cases hn
      · exact .inr (.inr ⟨_, hrefused⟩)
      · rw [hframe] at hn
        cases hn
        exact hdecided.imp_right .inr
    · intro hn
      rcases messagePack_cases small hbody codec with
        ⟨needed, hframe, -⟩ | ⟨error, hrefused⟩ | ⟨n', hframe, -⟩
      · rw [hframe] at hn
        cases hn
      · exact ⟨_, hrefused⟩
      · rw [hframe] at hn
        cases hn
    · intro e he hother
      rcases messagePack_cases small hbody codec with
        ⟨needed, -, hdecode⟩ | ⟨error, hrefused⟩ | ⟨n', hframe, -⟩
      · rw [hdecode] at he
        cases he
      · rw [hrefused] at he
        cases he
        exact absurd rfl (hother error)
      · exact ⟨n', hframe⟩

/-- An event with the tag `a` and no fields, and the first byte of the message behind it. -/
theorem frameOf_agrees_of_messagePack_event :
    frameOf [0x93, 0xA1, 0x61, 0x10, 0x80, 0x93] = .complete 5 := by
  have start : ∀ first rest, body [0x93, 0xA1, 0x61, 0x10, 0x80, 0x93] = first :: rest →
      first ≠ 0x5B ∧ first ≠ 0x7B := by
    intro first rest h
    cases (show [0x93, 0xA1, 0x61, 0x10, 0x80, 0x93] = first :: rest from h)
    decide
  exact (frameOf_agrees_of_messagePack _ (by decide) start).1 ⟨"a", [⟨16, []⟩]⟩ 5
    (by with_unfolding_all rfl)

/-- **The scanner never misplaces the end of a JSON message.**  Where the decoder accepts a message,
or refuses it for its shape, the frame ends with the value of the message; so as long as the scanner
waits for bytes the decoder accepts nothing. -/
theorem frameOf_agrees_of_json (b : Bytes) (first : UInt8) (rest : Bytes)
    (start : body b = first :: rest) (bracket : first = 0x5B ∨ first = 0x7B) :
    (∀ set n, decode b = .message set n → frameOf b = .complete n ∧
        ∃ v after, Json.read (body b) = .done v after ∧ n = b.length - after.length) ∧
      (∀ e, decode b = .refused e → (∀ error, e ≠ .codec (.json error)) →
        ∃ v after, Json.read (body b) = .done v after ∧
          frameOf b = .complete (b.length - after.length)) ∧
      (∀ needed, frameOf b = .incomplete needed → (decode b).sets? = none) := by
  have codec := Codec.sniff_eq_json_iff.2 bracket
  have hvalue : ∀ {v after}, (Codec.sniff first).read (body b) = .done v after →
      Json.read (body b) = .done v after := by
    intro v after h
    rw [codec] at h
    exact Reading.mapError_eq_done_iff.1 h
  have hmessage : ∀ set n, decode b = .message set n → frameOf b = .complete n ∧
      ∃ v after, Json.read (body b) = .done v after ∧ n = b.length - after.length := by
    intro set n h
    obtain ⟨first', rest', v, after, hbody, hread, hset⟩ := exists_read_of_message h
    obtain ⟨rfl, rfl⟩ := List.cons.inj (start.symm.trans hbody)
    have hn := decodingOf_eq_message hset
    have hframe := frameOf_of_json_read start codec (hvalue hread)
    exact ⟨hn ▸ hframe, v, after, hvalue hread, hn⟩
  refine ⟨hmessage, fun e h hother => ?_, fun needed hframe => ?_⟩
  · obtain ⟨first', rest', hbody, hcase⟩ := exists_read_of_refused h
    obtain ⟨rfl, rfl⟩ := List.cons.inj (start.symm.trans hbody)
    rcases hcase with ⟨error, hfailed, rfl⟩ | ⟨v, after, hread, -⟩
    · rw [codec] at hfailed
      obtain ⟨error, -, rfl⟩ := Reading.mapError_eq_failed_iff.1 hfailed
      exact absurd rfl (hother error)
    · exact ⟨v, after, hvalue hread, frameOf_of_json_read start codec (hvalue hread)⟩
  · cases hdecode : decode b with
    | incomplete => rfl
    | refused error => rfl
    | message set n =>
      rw [(hmessage set n hdecode).1] at hframe
      cases hframe
    | separators n =>
      rw [(body_eq_nil_of_separators hdecode).1] at start
      cases start

/-- The event `["]",0,{}]` behind a space, and a bracket behind it. -/
theorem frameOf_agrees_of_json_event :
    frameOf [0x20, 0x5B, 0x22, 0x5D, 0x22, 0x2C, 0x30, 0x2C, 0x7B, 0x7D, 0x5D, 0x5D] =
      .complete 11 := by
  have start : body [0x20, 0x5B, 0x22, 0x5D, 0x22, 0x2C, 0x30, 0x2C, 0x7B, 0x7D, 0x5D, 0x5D] =
      0x5B :: [0x22, 0x5D, 0x22, 0x2C, 0x30, 0x2C, 0x7B, 0x7D, 0x5D, 0x5D] := rfl
  exact ((frameOf_agrees_of_json _ _ _ start (.inl rfl)).1 ⟨"]", [⟨0, []⟩]⟩ 11
    (by with_unfolding_all rfl)).1

end Message

end ForwardIntake
