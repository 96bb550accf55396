import ForwardIntake.Connection.Session
import ForwardIntake.Proofs.Message.Draining
import ForwardIntake.Proofs.Message.Packing

/-!
# Progress

A buffer is drained, and packed entries are read, in rounds that nothing counts beforehand.  Each
round takes bytes off the front (`Advancing`), whatever they are, so there are never more rounds
than bytes (`Advancing.add_length_le`).

The bytes that a round takes are there: a message and a packed entry end inside of the bytes that
they were read from, and a session releases no more of its buffer than that (`decoding_progress`).
-/

namespace ForwardIntake

/-! ### Rounds -/

/-- So many rounds lead from some bytes to those that are left. -/
inductive Rounds (round : Bytes → Bytes → Prop) : Nat → Bytes → Bytes → Prop where
  | none (b : Bytes) : Rounds round 0 b b
  | more {n : Nat} {b next left : Bytes} (hround : round b next)
    (hmore : Rounds round n next left) : Rounds round (n + 1) b left

/-- A round takes at least one byte off the front, and leaves what is behind. -/
def Advancing (round : Bytes → Bytes → Prop) : Prop :=
  ∀ b next, round b next → ∃ front, front ≠ [] ∧ b = front ++ next

section

variable {round : Bytes → Bytes → Prop} {n : Nat} {b left : Bytes}

/-- What rounds leave stands at the end of the bytes. -/
private theorem Advancing.exists_front (hround : Advancing round) (h : Rounds round n b left) :
    ∃ front, b = front ++ left ∧ n ≤ front.length := by
  induction h with
  | none b => exact ⟨[], rfl, Nat.le_refl 0⟩
  | more hfirst _ ih =>
    obtain ⟨first, hne, rfl⟩ := hround _ _ hfirst
    obtain ⟨front, rfl, hle⟩ := ih
    refine ⟨first ++ front, (List.append_assoc _ _ _).symm, ?_⟩
    have hpos := List.length_pos_iff.2 hne
    rw [List.length_append]
    omega

/-- **There are no more rounds than bytes.** -/
private theorem Advancing.add_length_le (hround : Advancing round) (h : Rounds round n b left) :
    n + left.length ≤ b.length := by
  obtain ⟨front, rfl, hle⟩ := hround.exists_front h
  rw [List.length_append]
  exact Nat.add_le_add_right hle _

end

namespace Message

open MessagePack

variable {b left : Bytes} {sets : List RecordSet}

/-! ### Decoding -/

/-- The bytes that decoding uses up decode to the same on their own. -/
private theorem decode_take_consumed (h : (decode b).sets? = some sets) :
    decode (b.take (decode b).consumed) = decode b := by
  obtain ⟨n, hdecode, -⟩ | ⟨set, n, hdecode, -⟩ := Decoding.sets?_eq_some_iff.1 h
  · obtain ⟨-, rfl⟩ := body_eq_nil_of_separators hdecode
    simp [hdecode]
  · have hle : n ≤ b.length := by
      have := (consumed_decode h).2
      rwa [hdecode] at this
    have hlength : n ≤ (b.take n).length := by rw [List.length_take, Nat.min_eq_left hle]
    have hwhole : decode (b.take n ++ b.drop n) = .message set n := by
      rw [List.take_append_drop, hdecode]
    rw [hdecode]
    exact decode_of_append_message hwhole hlength

/-- Separators alone are used up without a record set. -/
private theorem sets?_eq_nil_iff :
    (decode b).sets? = some [] ↔ b ≠ [] ∧ ∀ byte ∈ b, Bytes.isSeparator byte = true := by
  have hblank : body b = [] ↔ ∀ byte ∈ b, Bytes.isSeparator byte = true :=
    List.dropWhile_eq_nil_iff
  rw [← hblank]
  constructor
  · intro h
    refine ⟨List.ne_nil_of_length_pos ?_, ?_⟩
    · exact Nat.lt_of_lt_of_le (consumed_decode h).1 (consumed_decode h).2
    · obtain ⟨n, hdecode, -⟩ | ⟨set, n, -, hsets⟩ := Decoding.sets?_eq_some_iff.1 h
      · exact (body_eq_nil_of_separators hdecode).1
      · cases hsets
  · rintro ⟨hne, hnil⟩
    rw [decode_of_nil hnil, if_neg hne]
    rfl

/-- Whitespace is taken as a whole. -/
private theorem consumed_of_nil (h : (decode b).sets? = some []) :
    (decode b).consumed = b.length := by
  obtain ⟨n, hdecode, -⟩ | ⟨set, n, -, hsets⟩ := Decoding.sets?_eq_some_iff.1 h
  · obtain ⟨-, rfl⟩ := body_eq_nil_of_separators hdecode
    simp [hdecode]
  · cases hsets

/-- A decoding yields one message at most. -/
private theorem length_sets_le (h : (decode b).sets? = some sets) : sets.length ≤ 1 := by
  obtain ⟨n, -, rfl⟩ | ⟨set, n, -, rfl⟩ := Decoding.sets?_eq_some_iff.1 h
  · exact Nat.zero_le 1
  · exact Nat.le_refl 1

/-! ### Draining -/

/-- A round of draining: decoding hands on record sets, and `left` is behind what it used up. -/
def DecodesTo (b left : Bytes) : Prop :=
  ∃ sets, (decode b).sets? = some sets ∧ left = b.drop (decode b).consumed

/-- Each decoding takes a byte at least. -/
private theorem advancing_decodesTo : Advancing DecodesTo := by
  rintro b _ ⟨sets, h, rfl⟩
  obtain ⟨hpos, hle⟩ := consumed_decode h
  refine ⟨b.take (decode b).consumed, List.ne_nil_of_length_pos ?_, ?_⟩
  · rwa [List.length_take, Nat.min_eq_left hle]
  · rw [List.take_append_drop]

/-- Draining goes on for as long as there is a round. -/
private theorem rounds_drain (b : Bytes) :
    ∃ n, Rounds DecodesTo n b (leftover b) ∧ (drain b).1.length = n + 1 := by
  induction b using drain_induction with
  | stop b h =>
    rw [leftover_of_none h, drain_of_none h]
    exact ⟨0, .none b, rfl⟩
  | step b sets h ih =>
    obtain ⟨n, hrounds, hlength⟩ := ih
    rw [leftover_of_some h, drain_of_some h]
    exact ⟨n + 1, .more ⟨sets, h, rfl⟩ hrounds, congrArg (· + 1) hlength⟩

/-! ### Unpacking -/

/-- A round of unpacking: there is an entry at the front, and `left` is behind it. -/
def UnpacksTo (b left : Bytes) : Prop :=
  ∃ entry record, reader.run b = .done entry left ∧ recordOf entry = .ok record

/-- Each entry takes a byte at least. -/
private theorem advancing_unpacksTo : Advancing UnpacksTo := by
  rintro b left ⟨entry, record, hread, -⟩
  obtain ⟨front, hfront, hspells⟩ := exists_spells hread
  exact ⟨front, hspells.ne_nil, hfront⟩

/-- A value that is read `offset` bytes behind the beginning of some bytes lies inside of them. -/
private theorem read_inside {offset : Nat} {entry : Value} {rest : Bytes}
    (h : reader.run (b.drop offset) = .done entry rest) :
    ∃ n, 0 < n ∧ offset + n ≤ b.length ∧ rest = b.drop (offset + n) := by
  obtain ⟨front, hfront, hspells⟩ := exists_spells h
  have hlength := congrArg List.length hfront
  have hpos := List.length_pos_iff.2 hspells.ne_nil
  rw [List.length_drop, List.length_append] at hlength
  refine ⟨front.length, hpos, by omega, ?_⟩
  rw [← List.drop_drop, hfront, List.drop_left]

/-- A row of packed entries takes one round for each. -/
private theorem rounds_of_packed {chunks : List Bytes} {records : List Record}
    (h : List.Forall₂ IsPacked chunks records) (rest : Bytes) :
    Rounds UnpacksTo records.length (chunks.flatten ++ rest) rest := by
  induction h with
  | nil => exact .none rest
  | cons hfirst _ ih =>
    obtain ⟨entry, hspells, hentry⟩ := hfirst
    rw [List.flatten_cons, List.append_assoc]
    exact .more ⟨entry, _, hspells.run_append _, (decides_recordOf entry).ok_iff.2 hentry⟩ ih

/-- A bad entry ends the rounds. -/
private theorem not_unpacksTo_of_bad {offset total : Nat} {e : DecodeError}
    (h : BadPacked offset total b e) : ¬UnpacksTo b left := by
  rintro ⟨entry, record, hdone, hrecord⟩
  cases h with
  | truncated hread =>
    rw [hread] at hdone
    cases hdone
  | codec hread =>
    rw [hread] at hdone
    cases hdone
  | entry hread hentry =>
    rw [hread] at hdone
    cases hdone
    rw [(decides_recordOf entry).error_iff.2 hentry] at hrecord
    cases hrecord

/-- Unpacking goes on for as long as there is a round, and is refused if bytes are left then. -/
private theorem rounds_unpack (b : Bytes) :
    ∃ n left, Rounds UnpacksTo n b left ∧ (∀ next, ¬UnpacksTo left next) ∧
      ((left = [] ∧ ∃ records, unpack b = .ok records ∧ records.length = n) ∨
        left ≠ [] ∧ ∃ e, unpack b = .error e) := by
  have hnil (next : Bytes) : ¬UnpacksTo [] next := by
    intro h
    obtain ⟨front, hne, hfront⟩ := advancing_unpacksTo _ _ h
    exact hne (List.append_eq_nil_iff.1 hfront.symm).1
  -- either way the entries at the front are the rounds, one for each record
  rcases (decides_unpack b).total with
    ⟨records, chunks, rfl, hchunks⟩ | ⟨e, chunks, records, rest, rfl, hne, hchunks, hbad⟩
  · have hrounds := rounds_of_packed hchunks []
    rw [List.append_nil] at hrounds
    refine ⟨records.length, [], hrounds, hnil, .inl ⟨rfl, records, ?_, rfl⟩⟩
    exact (decides_unpack _).ok_iff.2 ⟨chunks, rfl, hchunks⟩
  · refine ⟨records.length, rest, rounds_of_packed hchunks rest, ?_, .inr ⟨hne, e, ?_⟩⟩
    · exact fun next => not_unpacksTo_of_bad hbad
    · exact (decides_unpack _).error_iff.2 ⟨chunks, records, rest, rfl, hne, hchunks, hbad⟩

end Message

namespace Session

variable {s s' : Session} {sets : List RecordSet}

/-! ### Releasing -/

/-- What a session takes off its buffer is what decoding used up, and is there. -/
private theorem exists_front_of_decode (h : s.decode = some (s', sets)) :
    ∃ front, s.buffer = front ++ s'.buffer ∧
      front.length = (Message.decode s.buffer).consumed := by
  have hrelease {n : Nat} {found : List RecordSet} (phase : Phase)
      (hfound : (Message.decode s.buffer).sets? = some found)
      (hn : (Message.decode s.buffer).consumed = n) :
      ∃ front, s.buffer = front ++ (s.release n phase).buffer ∧ front.length = n := by
    -- as much can be taken off, since no more is used up than there is
    refine ⟨s.buffer.take n, (List.take_append_drop n s.buffer).symm, ?_⟩
    rw [List.length_take, Nat.min_eq_left (hn ▸ (Message.consumed_decode hfound).2)]
  rw [Session.decode] at h
  split at h
  · cases h
  · rename_i n hdecode
    cases h
    rw [hdecode] at hrelease ⊢
    exact hrelease .scanning rfl rfl
  · rename_i set n hdecode
    cases h
    rw [hdecode] at hrelease ⊢
    exact hrelease (.emitting [set]) rfl rfl
  · rename_i e hdecode
    cases h
    rw [hdecode]
    exact ⟨[], rfl, rfl⟩

end Session

namespace Message

/-- **Progress.**  A decoding that hands on record sets uses up at least one byte and no more than
there are, and it depends on no others.  It hands on one record set, or none if the buffer is
separators only, and then it uses up all of them.  A packed entry takes at least one byte as well
and lies inside of the packed bytes.

So draining and unpacking come to an end, after no more rounds than there are bytes, and a session
releases only what is in its buffer. -/
theorem decoding_progress :
    (∀ (b : Bytes) (sets : List RecordSet), (decode b).sets? = some sets →
      0 < (decode b).consumed ∧ (decode b).consumed ≤ b.length ∧
        decode (b.take (decode b).consumed) = decode b ∧ sets.length ≤ 1 ∧
          (sets = [] → (decode b).consumed = b.length)) ∧
    (∀ b : Bytes, (decode b).sets? = some [] ↔
      b ≠ [] ∧ ∀ byte ∈ b, Bytes.isSeparator byte = true) ∧
    (∀ (b : Bytes) (offset : Nat) (entry : Value) (rest : Bytes),
      MessagePack.reader.run (b.drop offset) = .done entry rest →
        ∃ n, 0 < n ∧ offset + n ≤ b.length ∧ rest = b.drop (offset + n)) ∧
    (∀ b : Bytes, (∀ n left, Rounds DecodesTo n b left → n + left.length ≤ b.length) ∧
      (decode (leftover b)).sets? = none ∧
        ∃ n, Rounds DecodesTo n b (leftover b) ∧ (drain b).1.length = n + 1) ∧
    (∀ b : Bytes, (∀ n left, Rounds UnpacksTo n b left → n + left.length ≤ b.length) ∧
      ∃ n left, Rounds UnpacksTo n b left ∧ (∀ next, ¬UnpacksTo left next) ∧
        ((left = [] ∧ ∃ records, unpack b = .ok records ∧ records.length = n) ∨
          left ≠ [] ∧ ∃ e, unpack b = .error e)) ∧
    ∀ (s s' : Session) (sets : List RecordSet), s.decode = some (s', sets) →
      ∃ front, s.buffer = front ++ s'.buffer ∧ front.length = (decode s.buffer).consumed := by
  refine ⟨fun b sets h => ?_, fun b => sets?_eq_nil_iff, fun b offset entry rest => read_inside,
    fun b => ⟨?_, sets?_leftover b, rounds_drain b⟩, fun b => ⟨?_, rounds_unpack b⟩,
    fun s s' sets => Session.exists_front_of_decode⟩
  · obtain ⟨hpos, hle⟩ := consumed_decode h
    refine ⟨hpos, hle, decode_take_consumed h, length_sets_le h, ?_⟩
    rintro rfl
    exact consumed_of_nil h
  · exact fun n left => advancing_decodesTo.add_length_le
  · exact fun n left => advancing_unpacksTo.add_length_le

set_option maxRecDepth 4000 in
/-- A message between separators, which is drained in two rounds; and a packed entry in front of a
byte that is no entry. -/
theorem decoding_progress_two :
    let buffer : Bytes := [0x0A, 0x93, 0xA1, 0x61, 0x01, 0x80, 0x20]
    let packed : Bytes := [0x92, 0x10, 0x80, 0xC0]
    let set : RecordSet := ⟨"a", [⟨1, []⟩]⟩
    decode buffer = .message set 6 ∧ decode (buffer.take 6) = .message set 6 ∧
      (decode [0x20]).consumed = 1 ∧
      (∃ n, 0 < n ∧ 0 + n ≤ packed.length ∧ [0xC0] = packed.drop (0 + n)) ∧
      2 + ([] : Bytes).length ≤ buffer.length ∧ 1 + [0xC0].length ≤ packed.length ∧
      ∃ front, buffer = front ++ [0x20] ∧ front.length = 6 := by
  intro buffer packed set
  obtain ⟨hused, hblank, hinside, hdrain, hunpack, hsession⟩ := decoding_progress
  have hdecode : decode buffer = .message set 6 := by with_unfolding_all rfl
  have hsets : (decode buffer).sets? = some [set] := congrArg Decoding.sets? hdecode
  have hconsumed : (decode buffer).consumed = 6 := congrArg Decoding.consumed hdecode
  have hrest : (decode [0x20]).sets? = some [] := (hblank [0x20]).2 (by decide)
  have hread : MessagePack.reader.run packed = .done (.array [.uint 16, .map []]) [0xC0] := by
    with_unfolding_all rfl
  have hrounds : Rounds DecodesTo 2 buffer [] :=
    .more ⟨_, hsets, by rw [hconsumed]; rfl⟩ (.more ⟨_, hrest, rfl⟩ (.none []))
  have hunpacked : Rounds UnpacksTo 1 packed [0xC0] := .more ⟨_, _, hread, rfl⟩ (.none _)
  have htake := (hused buffer _ hsets).2.2.1
  rw [hconsumed, hdecode] at htake
  let s : Session := { Session.new 0 ⟨0⟩ .silent with buffer }
  have hreleased : s.decode = some (s.release 6 (.emitting [set]), [set]) := by
    rw [Session.decode, show decode s.buffer = .message set 6 from hdecode]
  obtain ⟨front, hfront, hlength⟩ := hsession s _ _ hreleased
  exact ⟨hdecode, htake, (hused _ _ hrest).2.2.2.2 rfl, hinside packed 0 _ _ hread,
    (hdrain buffer).1 2 [] hrounds, (hunpack packed).1 1 _ hunpacked, front, hfront,
    hlength.trans hconsumed⟩

end Message

end ForwardIntake
