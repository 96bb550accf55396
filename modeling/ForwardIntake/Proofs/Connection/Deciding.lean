import ForwardIntake.Proofs.Connection.Limit
import ForwardIntake.Proofs.Json.Unfinished

/-!
# Deciding on a finished frame

A session decodes a message when the scanner has found its frame, and then the decoder should accept
it or refuse it.  On JSON there is one kind of message on which it does neither
(`frame_decided_or_breaksOff`): a string of it has an escape `\u` without its four digits, and the
buffer ends before four bytes have come behind it (`BreaksOff`).  The scanner takes a quote among
those bytes for the end of the string, and may find the end of the message behind it, while the
decoder still waits for digits.

The session then waits for bytes behind the frame, and decodes the message again when they arrive.
It refuses the message once there are four bytes behind `\u`, and if the stream ends before, it ends
inside a message.
-/

namespace ForwardIntake

open ForwardIntake.Frame ForwardIntake.Frame.BracketWalk ForwardIntake.Scanner

namespace Message

variable {b : Bytes} {first : UInt8} {rest : Bytes}

/-- The bytes `tail`, at the end of a buffer and behind an escape `\u` in a string of its message,
are too few for the digits of the escape, and one of them is no digit. -/
structure BreaksOff (b front tail : Bytes) : Prop where
  eq : b = front ++ 0x5C :: 0x75 :: tail
  inString : ∃ depth, Leads (outside 0) (inside depth) (body front)
  short : tail.length < 4
  noDigit : ∃ c ∈ tail, Json.hexValue? c = none

/-! ### What the decoder makes of JSON -/

/-- A message of JSON that is incomplete is so for the reader. -/
private theorem read_of_decode_incomplete (h : body b = first :: rest)
    (codec : Codec.sniff first = .json) (hdecode : decode b = .incomplete) :
    Json.read (body b) = .incomplete := by
  rw [decode_of_cons h, codec] at hdecode
  cases hread : Codec.json.read (body b) with
  | incomplete => exact Reading.mapError_eq_incomplete_iff.1 hread
  | failed error =>
    rw [hread] at hdecode
    cases hdecode
  | done v after =>
    simp only [hread, decodingOf] at hdecode
    split at hdecode
    · cases hdecode
    · cases hdecode

private theorem decode_of_read_incomplete (h : body b = first :: rest)
    (codec : Codec.sniff first = .json) (hread : Json.read (body b) = .incomplete) :
    decode b = .incomplete := by
  simp [decode_of_cons h, codec, hread]

/-- What the reader refuses is refused. -/
private theorem decode_of_read_failed {e : Json.Error} (h : body b = first :: rest)
    (codec : Codec.sniff first = .json) (hread : Json.read (body b) = .failed e) :
    decode b = .refused (.codec (.json e)) := by
  simp [decode_of_cons h, codec, hread]

/-! ### Messages that break off -/

/-- Nothing opens no string. -/
private theorem ne_nil_of_leads_inside {x : Bytes}
    (h : ∃ depth, Leads (outside 0) (inside depth) x) : x ≠ [] := by
  rintro rfl
  obtain ⟨depth, hleads⟩ := h
  cases hleads 0

namespace BreaksOff

variable {front tail : Bytes} (h : BreaksOff b front tail)

include h

/-- What follows goes on behind the broken escape. -/
private theorem body_append_eq (more : Bytes) :
    body (b ++ more) = body front ++ 0x5C :: 0x75 :: (tail ++ more) := by
  rw [h.eq, List.append_assoc, body_append (ne_nil_of_leads_inside h.inString)]
  rfl

/-- The buffer ends at the end of the frame, or one byte behind it. -/
private theorem length_le {n : Nat} (start : body b = first :: rest)
    (codec : Codec.sniff first = .json) (hframe : frameOf b = .complete n) : b.length ≤ n + 1 := by
  obtain ⟨depth, hleads⟩ := h.inString
  have hescape : Leads (outside 0) (inside depth) (body front ++ [0x5C, 0x75]) :=
    hleads.trans (.cons (fun _ => step_inside_backslash) (.single fun _ => step_behind))
  have hbody : body b = (body front ++ [0x5C, 0x75]) ++ tail := by
    have hb := h.body_append_eq []
    rw [List.append_nil, List.append_nil] at hb
    rw [hb, List.append_assoc]
    rfl
  -- the walk is inside the string in front of `tail`, so the frame ends behind its first byte
  rw [frameOf_of_json start codec, hbody, advance_append_of_over? _ _ (hescape _)] at hframe
  have hlt := lt_of_advance_inside hframe
  have hlength := congrArg List.length (separators_append_body b)
  have hshort := h.short
  rw [hbody, List.length_append, List.length_append] at hlength
  omega

variable (hreaches : Json.Reaches (outside 0) (Json.reader Json.maxDepth).run (body front))
  {more : Bytes}

include hreaches

/-- With fewer than four bytes behind the escape more are waited for. -/
private theorem decode_append_incomplete (start : body (b ++ more) = first :: rest)
    (codec : Codec.sniff first = .json) (hlength : tail.length + more.length < 4) :
    decode (b ++ more) = .incomplete := by
  refine decode_of_read_incomplete start codec ?_
  rw [h.body_append_eq]
  exact hreaches.read_eq_incomplete (by rw [List.length_append]; exact hlength)

/-- With four of them the escape is refused. -/
private theorem decode_append_refused (start : body (b ++ more) = first :: rest)
    (codec : Codec.sniff first = .json) (hlength : 4 ≤ tail.length + more.length) :
    ∃ e, decode (b ++ more) = .refused (.codec (.json e)) ∧ e.fault = .invalidEscape := by
  have hdigit : ∃ c ∈ (tail ++ more).take 4, Json.hexValue? c = none := by
    obtain ⟨c, hc, hnone⟩ := h.noDigit
    rw [List.take_append, List.take_of_length_le (Nat.le_of_lt h.short)]
    exact ⟨c, List.mem_append_left _ hc, hnone⟩
  obtain ⟨e, hread, hfault⟩ := hreaches.read_eq_failed
    (by rw [List.length_append]; exact Nat.not_lt.2 hlength) hdigit
  rw [← h.body_append_eq] at hread
  exact ⟨e, decode_of_read_failed start codec hread, hfault⟩

end BreaksOff

/-! ### Frames on which the decoder has not decided -/

/-- A complete frame is not left open. -/
private theorem not_isOpen_of_frameOf {n : Nat} (start : body b = first :: rest)
    (codec : Codec.sniff first = .json) (hframe : frameOf b = .complete n) :
    ¬Open (outside 0) (body b) := by
  rintro ⟨s', hleads⟩
  rw [frameOf_of_json start codec, advance_of_over? _ (hleads _)] at hframe
  cases hframe

/-- The separators of a buffer can stand before any message. -/
private theorem body_separators_append {c : UInt8} (hc : Bytes.isSeparator c = false) (x : Bytes) :
    body (separators b ++ c :: x) = c :: x := by
  have hblank : body (separators b) = [] :=
    List.dropWhile_eq_nil_iff.2 fun _ => List.mem_takeWhile_imp
  rw [body_append_of_body_eq_nil hblank]
  exact List.dropWhile_cons_of_neg (by rw [hc]; exact Bool.false_ne_true)

/-- **A frame on which the decoder has not decided breaks off in the digits of an escape.** -/
private theorem exists_breaksOff {n : Nat} (start : body b = first :: rest)
    (codec : Codec.sniff first = .json) (hframe : frameOf b = .complete n)
    (hdecode : decode b = .incomplete) :
    ∃ front tail, BreaksOff b front tail ∧
      Json.Reaches (outside 0) (Json.reader Json.maxDepth).run (body front) := by
  obtain ⟨x, tail, hbody, htail, hdigit, hreaches⟩ := Json.exists_reaches
    (read_of_decode_incomplete start codec hdecode) (not_isOpen_of_frameOf start codec hframe)
  obtain ⟨c, x, rfl⟩ := List.exists_cons_of_ne_nil (ne_nil_of_leads_inside hreaches.leads)
  obtain rfl : first = c := (List.cons.inj (start.symm.trans hbody)).1
  have hseparator : Bytes.isSeparator first = false := by
    rcases Codec.sniff_eq_json_iff.1 codec with rfl | rfl <;> rfl
  have hfront : body (separators b ++ first :: x) = first :: x :=
    body_separators_append hseparator x
  rw [← hfront] at hreaches
  refine ⟨separators b ++ first :: x, tail, ⟨?_, hreaches.leads, htail, hdigit⟩, hreaches⟩
  rw [List.append_assoc, ← hbody, separators_append_body]

end Message

namespace Serving

open Message

/-- **The decoder decides on a finished JSON frame, unless it breaks off in the digits of an
escape.**  Where it decides, the message of the frame is accepted, or it is refused without waiting
for bytes.  Where it does not, the session asks for bytes behind the frame and decodes the message
again; the stream may not end there; and the message is refused when there are bytes for all of the
digits. -/
theorem frame_decided_or_breaksOff (b : Bytes) (first : UInt8) (rest : Bytes) (n : Nat)
    (start : body b = first :: rest) (bracket : first = 0x5B ∨ first = 0x7B)
    (hframe : frameOf b = .complete n) :
    (demand b = 0 ∧ ((∃ set, decode b = .message set n) ∨ ∃ error, refusal? b = some error)) ∨
      (demand b = b.length + 1 ∧ ending b = .unexpectedEnd ∧ b.length ≤ n + 1 ∧
        ∃ front tail, BreaksOff b front tail ∧
          (∀ more, tail.length + more.length < 4 → decode (b ++ more) = .incomplete) ∧
          ∀ more, 4 ≤ tail.length + more.length →
            ∃ e, decode (b ++ more) = .refused (.codec (.json e)) ∧ e.fault = .invalidEscape) := by
  have codec := Codec.sniff_eq_json_iff.2 bracket
  have found : (frameOf b).isIncomplete = false := by simp [hframe]
  have hdemand := demand_of_found found
  have hrefusal := refusal?_of_found found
  cases hdecode : decode b with
  | separators n' =>
    rw [(body_eq_nil_of_separators hdecode).1] at start
    cases start
  | message set n' =>
    obtain ⟨first', rest', v, after, hbody, hread, hset⟩ := exists_read_of_message hdecode
    obtain ⟨rfl, rfl⟩ := List.cons.inj (start.symm.trans hbody)
    rw [codec] at hread
    have hend := frameOf_of_json_read start codec (Reading.mapError_eq_done_iff.1 hread)
    rw [hframe, ← decodingOf_eq_message hset] at hend
    cases hend
    rw [hdecode] at hdemand
    exact .inl ⟨hdemand, .inl ⟨set, rfl⟩⟩
  | refused error =>
    rw [hdecode] at hdemand hrefusal
    exact .inl ⟨hdemand, .inr ⟨error, hrefusal⟩⟩
  | incomplete =>
    obtain ⟨front, tail, hbreaks, hreaches⟩ := exists_breaksOff start codec hframe hdecode
    have hne : b ≠ [] := by
      rintro rfl
      cases start
    have hending : ending b = .unexpectedEnd := by rw [ending, if_neg hne, hdecode]
    have hmore : ∀ more, body (b ++ more) = first :: (rest ++ more) := fun more => by
      rw [body_append_of_cons start]
    rw [hdecode] at hdemand
    exact .inr ⟨hdemand, hending, hbreaks.length_le start codec hframe, front, tail, hbreaks,
      fun more => hbreaks.decode_append_incomplete hreaches (hmore more) codec,
      fun more => hbreaks.decode_append_refused hreaches (hmore more) codec⟩

/-- The scanner takes these six bytes for a message, and the reader waits for more. -/
private theorem decode_brokenEscape :
    decode [0x5B, 0x22, 0x5C, 0x75, 0x22, 0x5D] = .incomplete := by
  with_unfolding_all rfl

/-- The array `["\u"]`: it is refused when four line feeds have come behind it. -/
theorem frame_decided_or_breaksOff_escape :
    ∃ e, decode [0x5B, 0x22, 0x5C, 0x75, 0x22, 0x5D, 0x0A, 0x0A, 0x0A, 0x0A] =
      .refused (.codec (.json e)) ∧ e.fault = .invalidEscape := by
  obtain ⟨-, hdecided⟩ | ⟨-, -, -, front, tail, -, -, hrefuses⟩ :=
    frame_decided_or_breaksOff [0x5B, 0x22, 0x5C, 0x75, 0x22, 0x5D] 0x5B
      [0x22, 0x5C, 0x75, 0x22, 0x5D] 6 rfl (.inl rfl) (by decide)
  · obtain ⟨set, hset⟩ | ⟨error, herror⟩ := hdecided
    · cases decode_brokenEscape.symm.trans hset
    · cases decode_brokenEscape.symm.trans (found_of_refusal? herror).2
  · exact hrefuses [0x0A, 0x0A, 0x0A, 0x0A] (Nat.le_add_left _ _)

/-- The array `["\u"]` has a frame, and the decoder waits for bytes behind it.  A session that reads
nothing else asks for them, and does not refuse the message. -/
theorem frame_undecided :
    let b : Bytes := [0x5B, 0x22, 0x5C, 0x75, 0x22, 0x5D]
    let h := (Hub.new 100 (⟨.empty⟩ : JsonLines)).accept "" (.ofArrivals [.chunk b])
    frameOf b = .complete 6 ∧ decode b = .incomplete ∧ demand b = 7 ∧
      (h.run 0).outcome? 0 = some .unexpectedEnd := by
  intro b h
  have hframe : frameOf b = .complete 6 := by decide
  have hdemand : demand b = 7 := by
    rw [demand_of_found (by simp [hframe]), decode_brokenEscape]
    rfl
  have hrefusal : refusal? b = none := by
    rw [refusal?_of_found (by simp [hframe]), decode_brokenEscape]
  have hnone : (decode b).sets? = none := by rw [decode_brokenEscape, Decoding.sets?_incomplete]
  have hreceives : h.Receives 0 [b] := by
    refine ⟨⟨0, ⟨0⟩, _, rfl, rfl, ?_, rfl⟩, JsonLines.accepts_of_faultless fun _ => rfl⟩
    decide
  obtain ⟨-, houtcome⟩ := Hub.run_serve hreceives (inMemory_of_flatten (by decide))
  refine ⟨hframe, decode_brokenEscape, hdemand, houtcome.trans ?_⟩
  have hstop : stop? h.limit b = none :=
    stop?_eq_none_iff.2 ⟨hrefusal, hdemand.trans_le (by decide)⟩
  rw [serve_of_one_read (by decide), serve_of_none hnone, hstop, proceed, ending,
    decode_brokenEscape, if_neg (List.cons_ne_nil _ _)]

end Serving

end ForwardIntake
