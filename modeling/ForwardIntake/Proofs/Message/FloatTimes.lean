import ForwardIntake.Proofs.Message.Grammar

/-!
# Floats for times

A time may be a float wherever it stands: behind the tag of an event, in an entry of an array and in
a packed entry.  In each of these places a float is accepted if and only if it is finite and the
number `x` that it stands for satisfies `0 ≤ x < 2 ^ 64`, and then the time is the word `t` with
`t ≤ x < t + 1`; no float is moved to the end of the range.  Every other float is refused by name,
and the message with it (`decode_of_float_time`).

`Timed` says where a float is the time of a record, in elements that are in order otherwise, and
`Awaits` that it is the first time that is still to be looked at, whatever comes behind it.
-/

namespace ForwardIntake

namespace Message

open MessagePack Value

variable {x : Binary64} {b : Bytes} {n : Nat} {v : Value} {parts : List Value} {t : UInt64}
  {records : UInt64 → List Record}

/-! ### Reading a message -/

/-- The value of the message at the front of a buffer, and where the message ends. -/
def Reads (b : Bytes) (v : Value) (n : Nat) : Prop :=
  ∃ first rest after, body b = first :: rest ∧
    (Codec.sniff first).read (body b) = .done v after ∧ n = b.length - after.length

/-- A message that is read decodes to what its value comes to. -/
private theorem Reads.decode_eq (h : Reads b v n) : decode b = whole (RecordSet.ofValue v) n := by
  obtain ⟨first, rest, after, hbody, hread, rfl⟩ := h
  rw [decode_of_cons hbody, hread]
  rfl

/-- Reading a well-formed message decodes it. -/
private theorem Reads.message {set : RecordSet} (h : Reads b v n) (hset : IsMessage v set) :
    decode b = .message set n := by
  rw [h.decode_eq, (decides_ofValue v).ok_iff.2 hset]
  rfl

/-- Reading a malformed message refuses it. -/
private theorem Reads.refused {e : DecodeError} (h : Reads b v n) (hbad : BadMessage v e) :
    decode b = .refused e := by
  rw [h.decode_eq, (decides_ofValue v).error_iff.2 hbad]
  rfl

/-- A value that was written is read as received. -/
private theorem reads_write (hcontainer : v.IsContainer) (hdepth : v.depth ≤ maxDepth)
    (hfits : v.Writable) : Reads (write v) v.received (write v).length := by
  obtain ⟨first, rest, hwrite, hle⟩ := exists_write_container hcontainer
  obtain ⟨hseparator, hcodec⟩ := messagePack_of_le hle
  have hbody : body (write v) = write v := by
    rw [hwrite, body, List.dropWhile_cons_of_neg (Bool.eq_false_iff.1 hseparator)]
  refine ⟨first, rest, [], hbody.trans hwrite, ?_, rfl⟩
  rw [hbody, hcodec]
  exact read_write hdepth hfits

/-! ### Where a float is a time -/

/-- Behind the tag of a message the float is the time of one record, and the records are in order
whatever word it comes to. -/
inductive Timed (x : Binary64) : List Value → (UInt64 → List Record) → Prop where
  | event (fields : Fields) (rest : List Value) :
    Timed x (.float x :: .map fields :: rest) fun t => [.ofFields t fields]
  | entry {before after : List Value} {earlier later : List Record}
    (hbefore : List.Forall₂ IsEntry before earlier) (fields : Fields)
    (hafter : List.Forall₂ IsEntry after later) (rest : List Value) :
    Timed x (.array (before ++ .array [.float x, .map fields] :: after) :: rest)
      fun t => earlier ++ .ofFields t fields :: later
  | packed {before after : List Bytes} {b : Bytes} {earlier later : List Record} {fields : Fields}
    (hbefore : List.Forall₂ IsPacked before earlier)
    (hspells : Spells b (.array [.float x, .map fields]))
    (hafter : List.Forall₂ IsPacked after later) (rest : List Value) :
    Timed x (.binary (before ++ b :: after).flatten :: rest)
      fun t => earlier ++ .ofFields t fields :: later

/-- Behind the tag of a message nothing is wrong before the float, which stands for a time. -/
inductive Awaits (x : Binary64) : List Value → Prop where
  | event (rest : List Value) : Awaits x (.float x :: rest)
  | entry {before : List Value} {earlier : List Record}
    (hbefore : List.Forall₂ IsEntry before earlier) (fields : Value) (after rest : List Value) :
    Awaits x (.array (before ++ .array [.float x, fields] :: after) :: rest)
  | packed {before : List Bytes} {b after : Bytes} {earlier : List Record} {fields : Value}
    (hbefore : List.Forall₂ IsPacked before earlier)
    (hread : reader.run b = .done (.array [.float x, fields]) after) (rest : List Value) :
    Awaits x (.binary (before.flatten ++ b) :: rest)

/-- A message with a float for its time awaits a time. -/
private theorem Timed.awaits (h : Timed x parts records) : Awaits x parts := by
  cases h with
  | event fields rest => exact .event _
  | entry hbefore fields hafter rest => exact .entry hbefore _ _ rest
  | packed hbefore hspells hafter rest =>
    rw [List.flatten_append, List.flatten_cons]
    exact .packed hbefore (hspells.run_append _) rest

/-- A float that is a time gives the records that time. -/
private theorem Timed.carries (h : Timed x parts records) (htime : IsTime (.float x) t) :
    Carries parts (records t) := by
  cases h with
  | event fields rest => exact .event htime
  | entry hbefore fields hafter rest =>
    exact .entries (List.rel_append hbefore (.cons (.pair htime) hafter))
  | packed hbefore hspells hafter rest =>
    exact .packed (List.rel_append hbefore (.cons ⟨_, hspells, .pair htime⟩ hafter))

/-- A float out of range is reported as it is. -/
private theorem Awaits.bad (h : Awaits x parts) (hrange : ¬x.InRange) :
    BadRecords parts (.time x) := by
  cases h with
  | event rest => exact .time (.float hrange)
  | entry hbefore fields after rest => exact .entry hbefore (.time (.float hrange))
  | packed hbefore hread rest =>
    have hne := List.ne_nil_of_length_pos (Nat.zero_lt_of_lt (reader.progress hread))
    exact .packed hbefore hne (.entry hread (.time (.float hrange)))

/-- What was written spells what is received. -/
private theorem spells_write (hdepth : v.depth ≤ maxDepth) (hfits : v.Writable) :
    Spells (write v) v.received := by
  have hvalue := value_write v maxDepth hdepth hfits []
  rwa [List.append_nil] at hvalue

/-- Every float can be the time of an event, of an entry in an array and of a packed entry. -/
private theorem reads_timed (x : Binary64) {s : String} (hfits : (Utf8.encode s).length < 2 ^ 32) :
    let entry : Value := .array [.float x, .map []]
    ∀ parts ∈ [[.float x, .map []], [.array [entry]], [.binary (write entry)]],
      let m : Value := .array (.text s :: parts)
      Reads (write m) m (write m).length ∧ Timed x parts fun t => [⟨t, []⟩] := by
  intro entry parts hparts m
  have hentry : entry.Writable := ⟨by simp, trivial, ⟨by simp, trivial⟩, trivial⟩
  have hlength : (write entry).length < 2 ^ 32 := by
    simp [entry, write, writeItems, writeFields, arrayHead, mapHead, marked]
  have hreads (hdepth : m.depth ≤ maxDepth) (hwritable : m.Writable) :=
    reads_write (.inl ⟨_, rfl⟩) hdepth hwritable
  simp only [List.mem_cons, List.not_mem_nil, or_false] at hparts
  rcases hparts with rfl | rfl | rfl
  · refine ⟨hreads ?_ ⟨by simp, hfits, trivial, ⟨by simp, trivial⟩, trivial⟩, .event [] []⟩
    simp [m, maxDepth]
  · refine ⟨hreads ?_ ⟨by simp, hfits, ⟨by simp, hentry, trivial⟩, trivial⟩, .entry .nil [] .nil []⟩
    simp [m, entry, maxDepth]
  · have hspells : Spells (write entry) entry :=
      spells_write (by simp [entry, maxDepth]) hentry
    have hpacked := Timed.packed .nil hspells .nil []
    rw [List.nil_append, List.flatten_singleton] at hpacked
    refine ⟨hreads ?_ ⟨by simp, hfits, hlength, trivial⟩, hpacked⟩
    simp [m, maxDepth]

/-! ### What becomes of the float -/

/-- A float in range tells just one time, and that is not moved by as much as a second. -/
private theorem exists_isTime (hrange : x.InRange) :
    ∃ t : UInt64, IsTime (.float x) t ∧ (t.toNat : ℚ) ≤ x.toRat ∧ x.toRat < t.toNat + 1 := by
  have hwhole := (Binary64.truncate?_eq_some_iff.1 (Binary64.truncate?_of_inRange hrange)).2
  refine ⟨_, .float hrange hwhole, ?_, ?_⟩
  · rw [hwhole]
    exact Nat.floor_le hrange.nonneg
  · rw [hwhole]
    exact Nat.lt_floor_add_one _

/-- Zeros of either sign and positive subnormal floats tell the time zero. -/
private theorem isTime_zero (hfield : x.exponentField = 0) (hnonneg : 0 ≤ x.toRat) :
    IsTime (.float x) 0 := by
  have hfloor := Binary64.floor_toRat_of_exponentField hfield
  have hone : x.toRat < 1 := Nat.floor_eq_zero.1 hfloor
  refine .float ⟨?_, hnonneg, hone.trans (by norm_num)⟩ hfloor.symm
  rw [Binary64.isFinite, hfield]
  rfl

/-- **Floats for times.**  Where a float is the time of a record and all else is in order, the
message is accepted if and only if the float is finite and stands for a number `x` with
`0 ≤ x < 2 ^ 64`.  Then the time is the word `t` with `t ≤ x < t + 1`; it is zero for zeros of
either sign, and for all subnormal floats but the negative ones.  Every other float is refused by
name as soon as it is looked at, whatever comes behind it.

Every float can stand in each of the places.  The greatest word, made a float, is `2 ^ 64`, so to be
less than that is to have a whole part that fits a word. -/
theorem decode_of_float_time (x : Binary64) :
    (∀ (b : Bytes) (n : Nat) (tag : Value) (s : String) (parts : List Value)
      (records : UInt64 → List Record),
      Reads b (.array (tag :: parts)) n → IsTag tag s → Timed x parts records →
        ((∃ set k, decode b = .message set k) ↔
          x.isFinite ∧ 0 ≤ x.toRat ∧ x.toRat < 2 ^ 64) ∧
        (x.InRange → ∃ t : UInt64, (t.toNat : ℚ) ≤ x.toRat ∧ x.toRat < t.toNat + 1 ∧
          decode b = .message ⟨s, records t⟩ n) ∧
        (x.isZero → decode b = .message ⟨s, records 0⟩ n) ∧
        (x.exponentField = 0 → decode b =
          if 0 ≤ x.toRat then .message ⟨s, records 0⟩ n else .refused (.time x))) ∧
    (∀ (b : Bytes) (n : Nat) (tag : Value) (s : String) (parts : List Value),
      Reads b (.array (tag :: parts)) n → IsTag tag s → Awaits x parts → ¬x.InRange →
        decode b = .refused (.time x)) ∧
    (∀ s : String, (Utf8.encode s).length < 2 ^ 32 →
      let entry : Value := .array [.float x, .map []]
      ∀ parts ∈ [[.float x, .map []], [.array [entry]], [.binary (write entry)]],
        let m : Value := .array (.text s :: parts)
        Reads (write m) m (write m).length ∧ Timed x parts fun t => [⟨t, []⟩]) ∧
    (Binary64.ofNat (2 ^ 64 - 1)).toRat = 2 ^ 64 ∧
    (0 ≤ x.toRat →
      (x.toRat < (Binary64.ofNat (2 ^ 64 - 1)).toRat ↔ x.wholePart < 2 ^ 64)) := by
  have haccepted {b : Bytes} {n : Nat} {tag : Value} {s : String} {parts : List Value}
      {records : UInt64 → List Record} {t : UInt64} (hreads : Reads b (.array (tag :: parts)) n)
      (htag : IsTag tag s) (htimed : Timed x parts records) (htime : IsTime (.float x) t) :
      decode b = .message ⟨s, records t⟩ n :=
    hreads.message (.mk htag (htimed.carries htime))
  have hrefused {b : Bytes} {n : Nat} {tag : Value} {s : String} {parts : List Value}
      (hreads : Reads b (.array (tag :: parts)) n) (htag : IsTag tag s) (hawaits : Awaits x parts)
      (hrange : ¬x.InRange) : decode b = .refused (.time x) :=
    hreads.refused (.records htag (hawaits.bad hrange))
  refine ⟨?_, ?_, fun s => reads_timed x, Binary64.toRat_ofNat_maxWord, ?_⟩
  · intro b n tag s parts records hreads htag htimed
    refine ⟨⟨?_, ?_⟩, ?_, ?_, ?_⟩
    · rintro ⟨set, k, hdecode⟩
      by_cases hrange : x.InRange
      · exact ⟨hrange.finite, hrange.nonneg, hrange.lt⟩
      · rw [hrefused hreads htag htimed.awaits hrange] at hdecode
        cases hdecode
    · rintro ⟨hfinite, hnonneg, hlt⟩
      obtain ⟨t, htime, -⟩ := exists_isTime ⟨hfinite, hnonneg, hlt⟩
      exact ⟨_, _, haccepted hreads htag htimed htime⟩
    · intro hrange
      obtain ⟨t, htime, hle, hlt⟩ := exists_isTime hrange
      exact ⟨t, hle, hlt, haccepted hreads htag htimed htime⟩
    · intro hzero
      have hfield : x.exponentField = 0 := by
        rw [Binary64.isZero, Bool.and_eq_true, beq_iff_eq] at hzero
        exact hzero.1
      have hnonneg := Binary64.toRat_nonneg_iff.2 (.inr hzero)
      exact haccepted hreads htag htimed (isTime_zero hfield hnonneg)
    · intro hfield
      split
      next hnonneg => exact haccepted hreads htag htimed (isTime_zero hfield hnonneg)
      next hneg => exact hrefused hreads htag htimed.awaits fun hrange => hneg hrange.nonneg
  · intro b n tag s parts
    exact hrefused
  · intro hnonneg
    rw [Binary64.toRat_ofNat_maxWord, Binary64.wholePart_of_nonneg hnonneg, Nat.floor_lt hnonneg]
    norm_num

/-- The greatest float below the end of the range for the time of an event, the end itself in an
entry of an array, and the float next to zero on the negative side in a packed entry. -/
theorem decode_of_float_time_ends :
    decode [0x93, 0xA1, 0x61, 0xCB, 0x43, 0xEF, 0xFF, 0xFF, 0xFF, 0xFF, 0xFF, 0xFF, 0x80] =
        .message ⟨"a", [⟨18446744073709549568, []⟩]⟩ 13 ∧
      decode [0x92, 0xA1, 0x61, 0x91, 0x92, 0xCB, 0x43, 0xF0, 0, 0, 0, 0, 0, 0, 0x80] =
        .refused (.time ⟨0x43F0000000000000⟩) ∧
      decode [0x92, 0xA1, 0x61, 0xC4, 0x0B, 0x92, 0xCB, 0x80, 0, 0, 0, 0, 0, 0, 0x01, 0x80] =
        .refused (.time ⟨0x8000000000000001⟩) := by
  let last : Binary64 := ⟨0x43EFFFFFFFFFFFFF⟩
  let beyond : Binary64 := ⟨0x43F0000000000000⟩
  let below : Binary64 := ⟨0x8000000000000001⟩
  have htext : (Utf8.encode "a").length < 2 ^ 32 := by decide
  have hrange : last.InRange := Binary64.inRange_iff.2 (by decide)
  have hbeyond : ¬beyond.InRange := by
    rw [Binary64.inRange_iff]
    decide
  have hbelow : ¬below.InRange := by
    rw [Binary64.inRange_iff]
    decide
  have hrat : last.toRat = 18446744073709549568 := by
    rw [Binary64.toRat, show last.negative = false by decide,
      show last.significand = 2 ^ 53 - 1 by decide, show last.exponent = 11 by decide]
    norm_num
  have hevent : Reads
      [0x93, 0xA1, 0x61, 0xCB, 0x43, 0xEF, 0xFF, 0xFF, 0xFF, 0xFF, 0xFF, 0xFF, 0x80]
      (.array [.text "a", .float last, .map []]) 13 :=
    ⟨0x93, _, [], rfl, by with_unfolding_all rfl, rfl⟩
  have hentry : Reads
      [0x92, 0xA1, 0x61, 0x91, 0x92, 0xCB, 0x43, 0xF0, 0, 0, 0, 0, 0, 0, 0x80]
      (.array [.text "a", .array [.array [.float beyond, .map []]]]) 15 :=
    ⟨0x92, _, [], rfl, by with_unfolding_all rfl, rfl⟩
  have hpacked : Reads
      [0x92, 0xA1, 0x61, 0xC4, 0x0B, 0x92, 0xCB, 0x80, 0, 0, 0, 0, 0, 0, 0x01, 0x80]
      (.array [.text "a", .binary [0x92, 0xCB, 0x80, 0, 0, 0, 0, 0, 0, 0x01, 0x80]]) 16 :=
    ⟨0x92, _, [], rfl, by with_unfolding_all rfl, rfl⟩
  refine ⟨?_, ?_, ?_⟩
  · obtain ⟨haccepted, -⟩ := decode_of_float_time last
    have htimed := Timed.event (x := last) [] []
    obtain ⟨t, hle, hlt, hdecode⟩ := (haccepted _ _ _ _ _ _ hevent (.text "a") htimed).2.1 hrange
    rw [hrat] at hle hlt
    have hle : t.toNat ≤ 18446744073709549568 := mod_cast hle
    have hlt : 18446744073709549568 < t.toNat + 1 := mod_cast hlt
    obtain rfl : t = 18446744073709549568 := UInt64.toNat_inj.1 (by simp; omega)
    exact hdecode
  · obtain ⟨-, hrefused, -⟩ := decode_of_float_time beyond
    exact hrefused _ _ _ _ _ hentry (.text "a") (.entry .nil _ [] []) hbeyond
  · obtain ⟨-, hrefused, -⟩ := decode_of_float_time below
    have hread : reader.run [0x92, 0xCB, 0x80, 0, 0, 0, 0, 0, 0, 0x01, 0x80] =
        .done (.array [.float below, .map []]) [] := by cbv
    exact hrefused _ _ _ _ _ hpacked (.text "a") (.packed .nil hread []) hbelow

end Message

end ForwardIntake
