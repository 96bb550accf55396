import ForwardIntake.Proofs.Json.Writing
import ForwardIntake.Proofs.Message.Shapes

/-!
# The codec of a message does not matter

A container without floats and raw bytes can be written in either codec.  The first byte tells which
one it was, the whole of it is read, and the value that is read is the same one; so both buffers
decode to the same record set or are refused with the same error (`codecs_agree`).
-/

namespace ForwardIntake

namespace Message

open Value

variable {v : Value}

/-- The codec in which the next message is read, if a message has begun. -/
def codec? (b : Bytes) : Option Codec :=
  (body b).head?.map Codec.sniff

/-- A first byte that is no separator tells the codec. -/
private theorem codec?_cons {first : UInt8} (h : Bytes.isSeparator first = false) (rest : Bytes) :
    codec? (first :: rest) = some (Codec.sniff first) := by
  rw [codec?, body, List.dropWhile_cons_of_neg (Bool.eq_false_iff.1 h)]
  rfl

/-! ### Messages in JSON -/

/-- JSON of an array or a map begins with its bracket. -/
private theorem exists_jsonWrite_container (h : v.IsContainer) :
    ∃ first rest, Json.write v = first :: rest ∧ Bytes.isSeparator first = false ∧
      Codec.sniff first = .json := by
  rcases h with ⟨items, rfl⟩ | ⟨fields, rfl⟩
  · exact ⟨0x5B, _, rfl, rfl, rfl⟩
  · exact ⟨0x7B, _, rfl, rfl, rfl⟩

/-- Text that was written as JSON is read back as received. -/
private theorem read_jsonWrite (htext : v.Textual) (hfloat : v.Floatless)
    (hdepth : v.depth ≤ Json.maxDepth) :
    Codec.json.read (Json.write v) = .done v.received [] := by
  have hrun := Json.run_write v htext hfloat Json.maxDepth hdepth [] Json.endsNumber_nil
  rw [List.append_nil] at hrun
  simp [Json.read, hrun]

/-! ### Both codecs -/

/-- **The codec does not matter.**  A container in which there are no floats and no raw bytes is
recognized in both codecs by its first byte, is read to its last byte as the same value, and comes
to one record set, for which the whole buffer is used up, or to one error.  This is so within the
bounds of the formats: containers inside one another, of which JSON allows fewer, and lengths of
four bytes. -/
theorem codecs_agree (v : Value) (hcontainer : v.IsContainer) (hfloat : v.Floatless)
    (htext : v.Textual) (hdepth : v.depth ≤ Json.maxDepth) (hfits : v.Writable) :
    let json := Json.write v
    let packed := MessagePack.write v
    let result := RecordSet.ofValue v.received
    codec? json = some .json ∧ codec? packed = some .messagePack ∧
      Codec.json.read json = .done v.received [] ∧
      Codec.messagePack.read packed = .done v.received [] ∧
      decode json = whole result json.length ∧ decode packed = whole result packed.length := by
  intro json packed result
  have hdepth' : v.depth ≤ MessagePack.maxDepth := Nat.le_trans hdepth (by decide)
  obtain ⟨first, rest, hjson, hseparator, hcodec⟩ := exists_jsonWrite_container hcontainer
  obtain ⟨first', rest', hpacked, hle⟩ := exists_write_container hcontainer
  obtain ⟨hseparator', hcodec'⟩ := messagePack_of_le hle
  have hread := read_jsonWrite htext hfloat hdepth
  refine ⟨?_, ?_, hread, read_write hdepth' hfits, ?_, ?_⟩
  · rw [← hcodec, ← codec?_cons hseparator rest, ← hjson]
  · rw [← hcodec', ← codec?_cons hseparator' rest', ← hpacked]
  · exact decode_of_read hjson hseparator hcodec hread
  · exact decode_write_container hcontainer hdepth' hfits

/-- An event whose tag and key need escapes, and a map, which is no message. -/
theorem codecs_agree_event :
    let event : Value := .array [.text "a\"\n\x01é", .int 16, .map [("k\\", .int (-1))]]
    let noMessage : Value := .map [("k", .nil)]
    let set : RecordSet := ⟨"a\"\n\x01é", [⟨16, [("k\\", .int (-1))]⟩]⟩
    decode (Json.write event) = .message set 31 ∧
      decode (MessagePack.write event) = .message set 14 ∧
      decode (Json.write noMessage) = .refused (.notArray .map) ∧
      decode (MessagePack.write noMessage) = .refused (.notArray .map) := by
  intro event noMessage set
  have htag : (Utf8.encode "a\"\n\x01é").length < 2 ^ 32 := by decide
  have hevent : event.Writable :=
    ⟨by decide, htag, trivial, ⟨by decide, by decide, trivial, trivial⟩, trivial⟩
  obtain ⟨-, -, -, -, hjson, hpacked⟩ := codecs_agree event (.inl ⟨_, rfl⟩)
    ⟨trivial, trivial, ⟨trivial, trivial⟩, trivial⟩ ⟨trivial, trivial, ⟨trivial, trivial⟩, trivial⟩
    (by decide) hevent
  obtain ⟨-, -, -, -, hjson', hpacked'⟩ := codecs_agree noMessage (.inr ⟨_, rfl⟩)
    ⟨trivial, trivial⟩ ⟨trivial, trivial⟩ (by decide) ⟨by decide, by decide, trivial, trivial⟩
  exact ⟨hjson, hpacked, hjson', hpacked'⟩

end Message

end ForwardIntake
