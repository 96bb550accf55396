import ForwardIntake.Proofs.Message.Framing
import ForwardIntake.Proofs.MessagePack.Writing

/-!
# The shapes carry the same records

The entries of a message can stand in it as an array, or packed one behind the other in raw bytes; a
message of one entry can also spell it out behind the tag.  Whatever values the tag and the entries
are, the message comes to the same record set in each of these shapes, or to the same error
(`shapes_agree`).

A message that was written decodes to what its value is read as (`decode_write_array`).  Unpacking
reads the entries one by one and stops at the first that is no record, just as it is done with the
items of an array (`unpack_writeItems`).
-/

namespace ForwardIntake

/-- The kinds of values that a message is written as, whether it is accepted or not. -/
def Value.IsContainer (v : Value) : Prop :=
  (∃ items, v = .array items) ∨ ∃ fields, v = .map fields

/-- The kinds of values that a time is written as. -/
def Value.IsTime (v : Value) : Prop :=
  (∃ n, v = .uint n) ∨ (∃ n, v = .int n ∧ 0 ≤ n) ∨ ∃ x, v = .float x

namespace Message

open MessagePack Value

variable {items entries : List Value} {tag : Value}

/-! ### Written messages -/

/-- The decoding of a buffer of `n` bytes that is one message and nothing else. -/
def whole (result : Except DecodeError RecordSet) (n : Nat) : Decoding :=
  match result with
  | .ok set => .message set n
  | .error error => .refused error

/-- A message with nothing behind it has the length of the buffer. -/
private theorem decodingOf_nil (b : Bytes) (v : Value) :
    decodingOf b v [] = whole (RecordSet.ofValue v) b.length :=
  rfl

/-- A buffer that is one value of its codec and nothing else. -/
theorem decode_of_read {codec : Codec} {b rest : Bytes} {first : UInt8} {v : Value}
    (hb : b = first :: rest) (hseparator : Bytes.isSeparator first = false)
    (hcodec : Codec.sniff first = codec) (hread : codec.read b = .done v []) :
    decode b = whole (RecordSet.ofValue v) b.length := by
  have hbody : body b = first :: rest := by
    rw [hb, body, List.dropWhile_cons_of_neg (Bool.eq_false_iff.1 hseparator)]
  rw [decode_of_cons hbody, hcodec, hbody, ← hb, hread, ← decodingOf_nil]

/-- The bytes from the first marker of a container on begin MessagePack. -/
theorem messagePack_of_le {first : UInt8} (h : 0x80 ≤ first.toNat) :
    Bytes.isSeparator first = false ∧ Codec.sniff first = .messagePack := by
  have hne : ∀ byte : UInt8, byte.toNat < 0x80 → first ≠ byte := by
    rintro byte hlt rfl
    omega
  constructor
  · simp [Bytes.isSeparator, hne]
  · exact Codec.sniff_eq_messagePack ⟨hne 0x5B (by decide), hne 0x7B (by decide)⟩

/-- A marker of one byte stands for itself. -/
private theorem exists_marker {n : Nat} (hlow : 0x80 ≤ n) (hbyte : n < 0x100) :
    ∃ first rest, [UInt8.ofNat n] = first :: rest ∧ 0x80 ≤ first.toNat := by
  refine ⟨_, [], rfl, ?_⟩
  rwa [UInt8.toNat_ofNat_of_lt' hbyte]

/-- An array that is written begins with a byte above those of JSON. -/
private theorem exists_arrayHead (n : Nat) :
    ∃ first rest, arrayHead n = first :: rest ∧ 0x80 ≤ first.toNat := by
  rw [arrayHead]
  split
  · exact exists_marker (by omega) (by omega)
  · split
    · exact ⟨0xDC, _, rfl, by decide⟩
    · exact ⟨0xDD, _, rfl, by decide⟩

/-- A map that is written begins with a byte above those of JSON. -/
private theorem exists_mapHead (n : Nat) :
    ∃ first rest, mapHead n = first :: rest ∧ 0x80 ≤ first.toNat := by
  rw [mapHead]
  split
  · exact exists_marker (by omega) (by omega)
  · split
    · exact ⟨0xDE, _, rfl, by decide⟩
    · exact ⟨0xDF, _, rfl, by decide⟩

/-- A written container begins with its marker. -/
theorem exists_write_container {v : Value} (h : v.IsContainer) :
    ∃ first rest, write v = first :: rest ∧ 0x80 ≤ first.toNat := by
  rcases h with ⟨items, rfl⟩ | ⟨fields, rfl⟩
  · obtain ⟨first, rest, hhead, hle⟩ := exists_arrayHead items.length
    exact ⟨first, rest ++ writeItems items, by rw [write, hhead, List.cons_append], hle⟩
  · obtain ⟨first, rest, hhead, hle⟩ := exists_mapHead fields.length
    exact ⟨first, rest ++ writeFields fields, by rw [write, hhead, List.cons_append], hle⟩

/-- What was written is read as received, with nothing behind it. -/
theorem read_write {v : Value} (hdepth : v.depth ≤ maxDepth) (hfits : v.Writable) :
    Codec.messagePack.read (write v) = .done v.received [] := by
  have hvalue := value_write v maxDepth hdepth hfits []
  rw [List.append_nil] at hvalue
  exact congrArg (Reading.mapError CodecError.messagePack) hvalue

/-- **A written message** decodes to what its value is read as. -/
theorem decode_write_container {v : Value} (hcontainer : v.IsContainer)
    (hdepth : v.depth ≤ maxDepth) (hfits : v.Writable) :
    decode (write v) = whole (RecordSet.ofValue v.received) (write v).length := by
  obtain ⟨first, rest, hwrite, hle⟩ := exists_write_container hcontainer
  obtain ⟨hseparator, hcodec⟩ := messagePack_of_le hle
  exact decode_of_read hwrite hseparator hcodec (read_write hdepth hfits)

/-- A written array decodes to what its value comes to. -/
theorem decode_write_array (hdepth : (Value.array items).depth ≤ maxDepth)
    (hfits : (Value.array items).Writable) :
    decode (write (.array items)) =
      whole (RecordSet.ofValue (Value.array items).received) (write (.array items)).length :=
  decode_write_container (.inl ⟨items, rfl⟩) hdepth hfits

/-! ### Packed entries -/

/-- An entry that is read is taken, and unpacking goes on behind it. -/
theorem packedRecords_of_done {total : Nat} {acc : List Record} {b rest : Bytes} {entry : Value}
    (h : MessagePack.reader.run b = .done entry rest) :
    packedRecords total acc b =
      match recordOf entry with
      | .ok record => packedRecords total (record :: acc) rest
      | .error error => .error error := by
  have hne : b ≠ [] := by
    rintro rfl
    cases h
  rw [packedRecords, if_neg hne]
  split
  · rename_i hdone
    rw [h] at hdone
    cases hdone
    rfl
  · rename_i hincomplete
    rw [h] at hincomplete
    cases hincomplete
  · rename_i hfailed
    rw [h] at hfailed
    cases hfailed

/-- Entries that were written unpack to the records of what is received. -/
private theorem packedRecords_writeItems {total : Nat} {acc : List Record}
    (hdepth : itemsDepth entries ≤ maxDepth) (hfits : ItemsWritable entries) :
    packedRecords total acc (writeItems entries) = recordsOf acc (receivedItems entries) := by
  induction entries generalizing acc with
  | nil =>
    rw [packedRecords]
    rfl
  | cons entry rest ih =>
    rw [itemsDepth, Nat.max_le] at hdepth
    have hread := value_write entry maxDepth hdepth.1 hfits.1 (writeItems rest)
    rw [writeItems, packedRecords_of_done hread, receivedItems, recordsOf]
    cases recordOf entry.received with
    | ok record => exact ih hdepth.2 hfits.2
    | error error => rfl

/-- **Packed entries** are the entries of an array. -/
theorem unpack_writeItems (hdepth : itemsDepth entries ≤ maxDepth)
    (hfits : ItemsWritable entries) :
    unpack (writeItems entries) = recordsOf [] (receivedItems entries) :=
  packedRecords_writeItems hdepth hfits

/-! ### Three shapes -/

/-- Messages whose tags are read alike and whose records are read alike come to the same. -/
theorem ofValue_congr {second second' : Value} {rest rest' : List Value}
    (h : recordsOfShape second rest = recordsOfShape second' rest') :
    RecordSet.ofValue (.array (tag :: second :: rest)) =
      RecordSet.ofValue (.array (tag :: second' :: rest')) := by
  simp only [RecordSet.ofValue, h]

/-- An entry that is a pair with a time in front, spelled out. -/
private theorem recordsOfShape_pair {time fields : Value} (htime : time.IsTime) :
    recordsOfShape time.received [fields.received] =
      recordsOf [] [.array [time.received, fields.received]] := by
  have huint (n : UInt64) : recordsOfShape (.uint n) [fields.received] =
      recordsOf [] [.array [.uint n, fields.received]] := by
    simp only [recordsOfShape, recordsOf, recordOf, timeOf, List.head?_cons]
    cases fieldsOf (some fields.received) with
    | ok fields => rfl
    | error error => rfl
  rcases htime with ⟨n, rfl⟩ | ⟨n, rfl, hpos⟩ | ⟨x, rfl⟩
  · exact huint n
  · rw [received, ofInt64, if_pos hpos]
    exact huint n.toUInt64
  · simp only [received, recordsOfShape, recordsOf, recordOf, timeOf, List.head?_cons]
    cases timeOfFloat x with
    | error error => rfl
    | ok time =>
      cases fieldsOf (some fields.received) with
      | ok fields => rfl
      | error error => rfl

/-- **The shapes agree.**  A message with its entries in an array, the same message with its entries
packed, and, if it has one entry that is a pair with a time in front, the message that spells out
that entry all come to one record set or to one error.  Where it is a record set, the whole buffer
is used up. -/
theorem shapes_agree (hdepth : (Value.array [tag, .array entries]).depth ≤ maxDepth)
    (hfits : (Value.array [tag, .array entries]).Writable)
    (hpacked : (writeItems entries).length < 2 ^ 32) :
    let result := RecordSet.ofValue (Value.array [tag, .array entries]).received
    let inline := write (.array [tag, .array entries])
    let packed := write (.array [tag, .binary (writeItems entries)])
    decode inline = whole result inline.length ∧ decode packed = whole result packed.length ∧
      ∀ time fields, entries = [.array [time, fields]] → time.IsTime →
        let single := write (.array [tag, time, fields])
        decode single = whole result single.length := by
  intro result inline packed
  have htag : tag.Writable := hfits.2.1
  have hitems : ItemsWritable entries := hfits.2.2.1.2
  have hentries : itemsDepth entries ≤ maxDepth := by
    simp only [depth, itemsDepth] at hdepth
    omega
  refine ⟨decode_write_array hdepth hfits, ?_, ?_⟩
  · have hresult : RecordSet.ofValue (Value.array [tag, .binary (writeItems entries)]).received =
        result := ofValue_congr (unpack_writeItems hentries hitems)
    have hdepth' : (Value.array [tag, .binary (writeItems entries)]).depth ≤ maxDepth := by
      simp only [depth, itemsDepth] at hdepth ⊢
      omega
    rw [← hresult]
    exact decode_write_array hdepth' ⟨by simp, htag, hpacked, trivial⟩
  · rintro time fields rfl htime single
    obtain ⟨⟨-, htimeFits, hfieldsFit, -⟩, -⟩ := hitems
    have hresult : RecordSet.ofValue (Value.array [tag, time, fields]).received = result :=
      ofValue_congr (recordsOfShape_pair htime)
    have hdepth' : (Value.array [tag, time, fields]).depth ≤ maxDepth := by
      simp only [depth, itemsDepth] at hdepth ⊢
      omega
    rw [← hresult]
    exact decode_write_array hdepth' ⟨by simp, htag, htimeFits, hfieldsFit, trivial⟩

/-- An event under the tag `a` in the three shapes. -/
theorem shapes_agree_event :
    decode [0x92, 0xA1, 0x61, 0x91, 0x92, 0x10, 0x80] = .message ⟨"a", [⟨16, []⟩]⟩ 7 ∧
      decode [0x92, 0xA1, 0x61, 0xC4, 0x03, 0x92, 0x10, 0x80] = .message ⟨"a", [⟨16, []⟩]⟩ 8 ∧
      decode [0x93, 0xA1, 0x61, 0x10, 0x80] = .message ⟨"a", [⟨16, []⟩]⟩ 5 := by
  let entries : List Value := [.array [.uint 16, .map []]]
  have hdepth : (Value.array [.text "a", .array entries]).depth ≤ maxDepth := by decide
  have htag : (Utf8.encode "a").length < 2 ^ 32 := by decide
  have hfits : (Value.array [.text "a", .array entries]).Writable :=
    ⟨by decide, htag, ⟨by decide, ⟨by decide, trivial, ⟨by decide, trivial⟩, trivial⟩, trivial⟩,
      trivial⟩
  obtain ⟨hinline, hpacked, hsingle⟩ := shapes_agree hdepth hfits (by decide)
  have hone := hsingle (.uint 16) (.map []) rfl (.inl ⟨16, rfl⟩)
  exact ⟨hinline, hpacked, hone⟩

end Message

end ForwardIntake
