import ForwardIntake.Proofs.Message.Packing
import ForwardIntake.Proofs.Value.AsBytes

/-!
# Messages with text as raw bytes

A client may send the tag of a message as raw bytes, and any text in the fields of its records, be
they those of a single event, of entries in an array or of packed entries.  The message comes to the
same record set for that (`text_as_bytes`), since fields are normalized when a record is made of
them.
-/

namespace ForwardIntake

open Value

namespace Value

/-- The second entry is the first one with some of the text in its fields as raw bytes. -/
inductive EntryAsBytes : Value → Value → Prop where
  | refl (entry : Value) : EntryAsBytes entry entry
  | fields {time : Value} {fields fields' : Fields} {more : List Value}
    (h : FieldsAsBytes fields fields') :
    EntryAsBytes (.array (time :: .map fields :: more)) (.array (time :: .map fields' :: more))

/-- The second tag is the first one, or the text that it is as raw bytes. -/
inductive TagAsBytes : Value → Value → Prop where
  | refl (tag : Value) : TagAsBytes tag tag
  | text (s : String) : TagAsBytes (.text s) (.binary (Utf8.encode s))

/-- What follows the tag of a message, with some of the text in the fields of its records as raw
bytes.  Packed entries may be spelled in any way before and after, or be written. -/
inductive PartsAsBytes : List Value → List Value → Prop where
  | refl (parts : List Value) : PartsAsBytes parts parts
  | event {second : Value} {fields fields' : Fields} {rest : List Value}
    (h : FieldsAsBytes fields fields') :
    PartsAsBytes (second :: .map fields :: rest) (second :: .map fields' :: rest)
  | entries {entries entries' rest : List Value} (h : List.Forall₂ EntryAsBytes entries entries') :
    PartsAsBytes (.array entries :: rest) (.array entries' :: rest)
  | spelled {chunks chunks' : List Bytes} {entries entries' rest : List Value}
    (hspells : List.Forall₂ MessagePack.Spells chunks entries)
    (hspells' : List.Forall₂ MessagePack.Spells chunks' entries')
    (h : List.Forall₂ EntryAsBytes entries entries') :
    PartsAsBytes (.binary chunks.flatten :: rest) (.binary chunks'.flatten :: rest)
  | written {entries entries' rest : List Value} (h : List.Forall₂ EntryAsBytes entries entries')
    (hdepth : itemsDepth entries ≤ MessagePack.maxDepth) (hfits : ItemsWritable entries) :
    PartsAsBytes (.binary (MessagePack.writeItems entries) :: rest)
      (.binary (MessagePack.writeItems entries') :: rest)

/-- The second message is the first one with some of its text as raw bytes, in its tag or in the
fields of its records. -/
inductive MessageAsBytes : Value → Value → Prop where
  | mk {tag tag' : Value} {parts parts' : List Value} (htag : TagAsBytes tag tag')
    (hparts : PartsAsBytes parts parts') :
    MessageAsBytes (.array (tag :: parts)) (.array (tag' :: parts'))

/-- A message keeps its number of parts. -/
private theorem PartsAsBytes.length_eq {parts parts' : List Value} (h : PartsAsBytes parts parts') :
    parts'.length = parts.length := by
  cases h with
  | _ => rfl

/-- An entry with text as raw bytes is a value with text as raw bytes. -/
private theorem EntryAsBytes.asBytes {v w : Value} (h : EntryAsBytes v w) : AsBytes v w := by
  cases h with
  | refl => exact .refl v
  | fields h => exact .array (.cons (.refl _) (.cons (.map h) (.refl _)))

private theorem itemsAsBytes_of_entries {entries entries' : List Value}
    (h : List.Forall₂ EntryAsBytes entries entries') : ItemsAsBytes entries entries' := by
  induction h with
  | nil => exact .nil
  | cons hfirst _ ih => exact .cons hfirst.asBytes ih

end Value

namespace Message

variable {entries entries' : List Value}

/-! ### Records -/

/-- A record depends on its fields by what they normalize to. -/
private theorem recordOf_congr {fields fields' : Fields}
    (h : normalizeFields fields' = normalizeFields fields) (time : Value) (more : List Value) :
    recordOf (.array (time :: .map fields' :: more)) =
      recordOf (.array (time :: .map fields :: more)) := by
  rcases more with _ | ⟨third, rest⟩
  · rw [recordOf, recordOf]
    cases timeOf time with
    | ok t => exact congrArg (fun normal => Except.ok (Record.mk t normal)) h
    | error e => rfl
  · rfl

/-- Entries that come to the same records one by one come to the same list. -/
private theorem recordsOf_congr
    (h : List.Forall₂ (fun v w => recordOf w = recordOf v) entries entries') (acc : List Record) :
    recordsOf acc entries' = recordsOf acc entries := by
  induction h generalizing acc with
  | nil => rfl
  | @cons v w _ _ hfirst _ ih =>
    rw [recordsOf, recordsOf, hfirst]
    cases recordOf v with
    | ok record => exact ih _
    | error e => rfl

/-- An entry comes to the same record for raw bytes. -/
private theorem recordOf_asBytes {v w : Value} (h : EntryAsBytes v w) :
    recordOf w = recordOf v := by
  cases h with
  | refl => rfl
  | fields h => exact recordOf_congr h.normalizeFields_eq _ _

private theorem recordOf_received_asBytes {v w : Value} (h : EntryAsBytes v w) :
    recordOf w.received = recordOf v.received := by
  cases h with
  | refl => rfl
  | @fields time fields fields' more h =>
    have hreceived : (Value.map fields').received.normalize =
        (Value.map fields).received.normalize := by
      rw [← received_normalize, ← received_normalize, (AsBytes.map h).normalize_eq]
    exact recordOf_congr (Value.map.inj hreceived) time.received (receivedItems more)

private theorem forall₂_received_asBytes (h : List.Forall₂ EntryAsBytes entries entries') :
    List.Forall₂ (fun v w => recordOf w = recordOf v) (receivedItems entries)
      (receivedItems entries') := by
  rw [receivedItems_eq_map, receivedItems_eq_map, List.forall₂_map_left_iff,
    List.forall₂_map_right_iff]
  exact h.imp fun _ _ => recordOf_received_asBytes

/-- Packed entries come to the records of what they spell. -/
private theorem packedRecords_flatten {chunks : List Bytes} {total : Nat}
    (h : List.Forall₂ MessagePack.Spells chunks entries) (acc : List Record) :
    packedRecords total acc chunks.flatten = recordsOf acc entries := by
  induction h generalizing acc with
  | nil => exact packedRecords_nil total acc
  | @cons c entry _ _ hfirst _ ih =>
    rw [List.flatten_cons, packedRecords_of_done (hfirst.run_append _), recordsOf]
    cases recordOf entry with
    | ok record => exact ih _
    | error e => rfl

/-- Two ways to spell packed entries, with raw bytes in one of them, come to the same. -/
private theorem unpack_flatten_asBytes {chunks chunks' : List Bytes}
    (hspells : List.Forall₂ MessagePack.Spells chunks entries)
    (hspells' : List.Forall₂ MessagePack.Spells chunks' entries')
    (h : List.Forall₂ EntryAsBytes entries entries') :
    unpack chunks'.flatten = unpack chunks.flatten := by
  rw [unpack, packedRecords_flatten hspells', unpack, packedRecords_flatten hspells]
  exact recordsOf_congr (h.imp fun _ _ => recordOf_asBytes) []

private theorem unpack_writeItems_asBytes (h : List.Forall₂ EntryAsBytes entries entries')
    (hdepth : itemsDepth entries ≤ MessagePack.maxDepth) (hfits : ItemsWritable entries) :
    unpack (MessagePack.writeItems entries') = unpack (MessagePack.writeItems entries) := by
  have hitems := itemsAsBytes_of_entries h
  have hdepth' : itemsDepth entries' ≤ MessagePack.maxDepth := by rwa [hitems.itemsDepth_eq]
  rw [unpack_writeItems hdepth' (hitems.itemsWritable hfits), unpack_writeItems hdepth hfits]
  exact recordsOf_congr (forall₂_received_asBytes h) []

/-! ### Messages -/

/-- A tag that is sent as raw bytes is the tag. -/
private theorem tagOf_asBytes {tag tag' : Value} (h : TagAsBytes tag tag') :
    tagOf tag' = tagOf tag := by
  cases h with
  | refl => rfl
  | text s => exact congrArg Except.ok (Utf8.decodeLossy_encode s)

/-- The records of a message depend on its third part by what it normalizes to. -/
private theorem recordsOfShape_fields {second : Value} {fields fields' : Fields} (rest : List Value)
    (h : normalizeFields fields' = normalizeFields fields) :
    recordsOfShape second (.map fields' :: rest) = recordsOfShape second (.map fields :: rest) := by
  cases second with
  | uint time => exact congrArg (fun normal => Except.ok [Record.mk time normal]) h
  | float x =>
    rw [recordsOfShape, recordsOfShape]
    cases timeOfFloat x with
    | ok t => exact congrArg (fun normal => Except.ok [Record.mk t normal]) h
    | error e => rfl
  | _ => rfl

/-- The parts behind the tag come to the same records. -/
private theorem recordsOfShape_asBytes {second second' : Value} {rest rest' : List Value}
    (h : PartsAsBytes (second :: rest) (second' :: rest')) :
    recordsOfShape second' rest' = recordsOfShape second rest := by
  cases h with
  | refl => rfl
  | event h => exact recordsOfShape_fields _ h.normalizeFields_eq
  | entries h => exact recordsOf_congr (h.imp fun _ _ => recordOf_asBytes) []
  | spelled hspells hspells' h => exact unpack_flatten_asBytes hspells hspells' h
  | written h hdepth hfits => exact unpack_writeItems_asBytes h hdepth hfits

/-- A whole message comes to the same record set. -/
private theorem ofValue_asBytes {m m' : Value} (h : MessageAsBytes m m') :
    RecordSet.ofValue m' = RecordSet.ofValue m := by
  obtain @⟨tag, tag', parts, parts', htag, hparts⟩ := h
  rcases parts with _ | ⟨second, rest⟩
  · obtain rfl := List.length_eq_zero_iff.1 hparts.length_eq
    rfl
  · obtain ⟨second', rest', rfl⟩ := List.exists_cons_of_length_eq_add_one hparts.length_eq
    rw [RecordSet.ofValue, RecordSet.ofValue, tagOf_asBytes htag, recordsOfShape_asBytes hparts]

/-- **Text as raw bytes.**  A message comes to the same when some of its text is sent as raw bytes,
in the tag or anywhere in the fields of its records.  For normalizing is idempotent, leaves values
without raw bytes alone and turns the bytes of a text into that text.  It normalizes each part of a
value in its place, and there it keeps the length of an array, the keys of a map and every scalar
but raw bytes. -/
theorem text_as_bytes :
    (∀ m m' : Value, MessageAsBytes m m' → RecordSet.ofValue m' = RecordSet.ofValue m) ∧
    ∀ v : Value, v.normalize.normalize = v.normalize ∧ (v.Textual → v.normalize = v) ∧
      (∀ s, v = .binary (Utf8.encode s) → v.normalize = .text s) ∧
      ∀ path, v.normalize.part? path = (v.part? path).map normalize ∧
        ∀ part, v.part? path = some part → KeepsForm part part.normalize := by
  refine ⟨fun m m' h => ofValue_asBytes h, fun v => ⟨normalize_normalize v, ?_, ?_, ?_⟩⟩
  · exact normalize_of_textual v
  · rintro s rfl
    exact congrArg Value.text (Utf8.decodeLossy_encode s)
  · intro path
    exact ⟨part?_normalize path v, fun part _ => keepsForm_normalize part⟩

/-- An event with its tag and a text inside of an array as raw bytes, and the same fields in a
packed entry. -/
theorem text_as_bytes_nested :
    let fields (v : Value) : Fields := [("k", .array [.text "x", v])]
    let event (tag v : Value) : Value := .array [tag, .uint 1, .map (fields v)]
    let packed (v : Value) : Value :=
      .array [.text "a", .binary (MessagePack.writeItems [.array [.uint 1, .map (fields v)]])]
    let text : Value := .text "b"
    let raw : Value := .binary (Utf8.encode "b")
    RecordSet.ofValue (event (.text "a") text) = .ok ⟨"a", [⟨1, fields text⟩]⟩ ∧
      RecordSet.ofValue (event (.binary (Utf8.encode "a")) raw) =
        RecordSet.ofValue (event (.text "a") text) ∧
      RecordSet.ofValue (packed raw) = RecordSet.ofValue (packed text) ∧
      raw.normalize = text ∧ text.normalize = text ∧ KeepsForm raw raw.normalize := by
  intro fields event packed text raw
  have hraw : AsBytes text raw := .text "b"
  have hfields : FieldsAsBytes (fields text) (fields raw) :=
    .cons "k" (.array (.cons (.refl _) (.cons hraw .nil))) .nil
  have hentry : EntryAsBytes (.array [.uint 1, .map (fields text)])
      (.array [.uint 1, .map (fields raw)]) := .fields hfields
  obtain ⟨hsame, hnormal⟩ := text_as_bytes
  obtain ⟨-, -, htext, hparts⟩ := hnormal raw
  obtain ⟨-, hkept, -⟩ := hnormal text
  refine ⟨rfl, hsame _ _ (.mk (.text "a") (.event hfields)), ?_, htext "b" rfl, hkept trivial, ?_⟩
  · have hx : (Utf8.encode "x").length < 2 ^ 32 := by decide
    have hb : (Utf8.encode "b").length < 2 ^ 32 := by decide
    have hitems : (Value.array [.text "x", text]).Writable := ⟨by decide, hx, hb, trivial⟩
    have hfits : ItemsWritable [.array [.uint 1, .map (fields text)]] :=
      ⟨⟨by decide, trivial, ⟨by decide, by decide, hitems, trivial⟩, trivial⟩, trivial⟩
    exact hsame _ _ (.mk (.refl _) (.written (.cons hentry .nil) (by decide) hfits))
  · exact (hparts []).2 raw rfl

end Message

end ForwardIntake
