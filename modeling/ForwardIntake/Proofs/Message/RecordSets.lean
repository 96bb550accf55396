import ForwardIntake.Proofs.Message.Canonical
import ForwardIntake.Proofs.Message.Shapes

/-!
# Record sets are messages

A record set is written in the shape of a message with its entries in an array.  What it is read
back as is the record set itself if its records are normal (`Record.IsNormal`).  Records are normal
if they are made from fields that come back as they are, and so are all records of a message that is
accepted; so a record set may be sent on as often as one likes (`decode_writeRecordSet`).
-/

namespace ForwardIntake

/-! ### Records as values -/

namespace Record

/-- The value as which a record is written. -/
def toValue (record : Record) : Value :=
  .array [.uint record.time, .map record.fields]

/-- The fields come back as they are and are normalized. -/
structure IsNormal (record : Record) : Prop where
  canonical : (Value.map record.fields).Canonical
  normalized : Value.normalizeFields record.fields = record.fields

/-- A record made of canonical fields is normal. -/
private theorem isNormal_ofFields (time : UInt64) {fields : Fields}
    (h : (Value.map fields).Canonical) :
    (ofFields time fields).IsNormal :=
  ⟨h.normalize, Value.map.inj (Value.normalize_normalize (.map fields))⟩

end Record

/-- The value as which a record set is written. -/
def RecordSet.toValue (set : RecordSet) : Value :=
  .array [.text set.tag, .array (set.records.map Record.toValue)]

namespace MessagePack

/-- A record is written like the value for it. -/
private theorem write_toValue_record (record : Record) :
    write record.toValue = writeRecord record := by
  rw [Record.toValue, write, writeItems, writeItems, writeItems, List.append_nil]
  rfl

private theorem writeItems_records (records : List Record) :
    writeItems (records.map Record.toValue) = records.flatMap writeRecord := by
  induction records with
  | nil => rfl
  | cons record rest ih =>
    rw [List.map_cons, writeItems, ih, write_toValue_record, List.flatMap_cons]

/-- A record set is written as its value is. -/
private theorem write_toValue (set : RecordSet) : write set.toValue = writeRecordSet set := by
  rw [RecordSet.toValue, write, writeItems, writeItems, writeItems, List.append_nil, write, write,
    writeItems_records, List.length_map]
  rfl

end MessagePack

namespace Message

open MessagePack Value

variable {b : Bytes} {set : RecordSet}

/-! ### Normal records come back -/

/-- The value for a normal record is an entry that holds it. -/
private theorem recordOf_toValue {record : Record} (h : record.IsNormal) :
    recordOf record.toValue = .ok record := by
  have hrecord : Record.ofFields record.time record.fields = record := by
    rw [Record.ofFields, h.normalized]
  exact congrArg Except.ok hrecord

private theorem recordsOf_toValue {records : List Record} (h : ∀ record ∈ records, record.IsNormal)
    (acc : List Record) :
    recordsOf acc (records.map Record.toValue) = .ok (acc.reverse ++ records) := by
  induction records generalizing acc with
  | nil =>
    rw [List.append_nil]
    rfl
  | cons record rest ih =>
    obtain ⟨hfirst, hrest⟩ := List.forall_mem_cons.1 h
    rw [List.map_cons, recordsOf, recordOf_toValue hfirst]
    simp only
    rw [ih hrest, List.reverse_cons, List.append_assoc, List.singleton_append]

/-- The value for a normal record set comes back as the set. -/
private theorem ofValue_toValue (h : ∀ record ∈ set.records, record.IsNormal) :
    RecordSet.ofValue set.toValue = .ok set := by
  have hrecords : recordsOfShape (.array (set.records.map Record.toValue)) [] = .ok set.records :=
    recordsOf_toValue h []
  simp only [RecordSet.toValue, RecordSet.ofValue, hrecords]
  rfl

/-- The value for a normal record set is canonical. -/
private theorem canonical_toValue (h : ∀ record ∈ set.records, record.IsNormal) :
    set.toValue.Canonical := by
  have hrecord : ∀ v ∈ set.records.map Record.toValue, v.Canonical := by
    refine List.forall_mem_map.2 fun record hmem => canonical_array.2 ?_
    exact List.forall_mem_cons.2 ⟨rfl, List.forall_mem_singleton.2 (h record hmem).canonical⟩
  refine canonical_array.2 (List.forall_mem_cons.2 ⟨rfl, ?_⟩)
  exact List.forall_mem_singleton.2 (canonical_array.2 hrecord)

/-- A record set of normal records comes back. -/
private theorem decode_of_isNormal (h : ∀ record ∈ set.records, record.IsNormal)
    (hdepth : set.toValue.depth ≤ maxDepth) (hfits : set.toValue.Writable) :
    decode (writeRecordSet set) = .message set (writeRecordSet set).length := by
  have hdecode : decode (write set.toValue) =
      whole (RecordSet.ofValue set.toValue.received) (write set.toValue).length :=
    decode_write_array hdepth hfits
  rw [canonical_toValue h, ofValue_toValue h, write_toValue] at hdecode
  exact hdecode

/-! ### Accepted records are normal -/

/-- A chain that succeeds does so in both of its steps. -/
private theorem exists_ok_of_bind {ε α β : Type} {x : Except ε α} {f : α → Except ε β} {b : β}
    (h : x >>= f = .ok b) : ∃ a, x = .ok a ∧ f a = .ok b := by
  cases x with
  | ok a => exact ⟨a, rfl, h⟩
  | error e => cases h

/-- Fields are those of a map. -/
private theorem eq_of_fieldsOf {v? : Option Value} {fields : Fields}
    (h : fieldsOf v? = .ok fields) : v? = some (.map fields) := by
  rw [fieldsOf.eq_def] at h
  split at h
  · cases h
    rfl
  · cases h
  · cases h

/-- Canonical fields make a normal record. -/
private theorem isNormal_of_fieldsOf {v? : Option Value} {fields : Fields}
    (h : fieldsOf v? = .ok fields) (hcanonical : ∀ v ∈ v?, v.Canonical) (time : UInt64) :
    (Record.ofFields time fields).IsNormal :=
  Record.isNormal_ofFields time (hcanonical _ (eq_of_fieldsOf h))

private theorem isNormal_of_recordOf {entry : Value} {record : Record}
    (h : recordOf entry = .ok record) (hcanonical : entry.Canonical) : record.IsNormal := by
  rw [recordOf.eq_def] at h
  split at h
  · rename_i time second
    have hsecond : second.Canonical :=
      canonical_array.1 hcanonical second (List.mem_cons_of_mem _ (List.mem_singleton_self second))
    obtain ⟨time, -, h⟩ := exists_ok_of_bind h
    obtain ⟨fields, hfields, h⟩ := exists_ok_of_bind h
    cases h
    refine isNormal_of_fieldsOf hfields (fun v hv => ?_) time
    rwa [← Option.mem_some.1 hv]
  · cases h
  · cases h

private theorem isNormal_of_recordsOf {entries : List Value} {acc records : List Record}
    (h : recordsOf acc entries = .ok records) (hcanonical : ∀ entry ∈ entries, entry.Canonical)
    (hacc : ∀ record ∈ acc, record.IsNormal) : ∀ record ∈ records, record.IsNormal := by
  induction entries generalizing acc with
  | nil =>
    cases h
    exact fun record hmem => hacc record (List.mem_reverse.1 hmem)
  | cons entry rest ih =>
    obtain ⟨hentry, hrest⟩ := List.forall_mem_cons.1 hcanonical
    rw [recordsOf] at h
    split at h
    · rename_i record hrecord
      refine ih h hrest (List.forall_mem_cons.2 ⟨isNormal_of_recordOf hrecord hentry, hacc⟩)
    · cases h

/-- Packed entries make normal records, since what they hold is read. -/
private theorem isNormal_of_packedRecords {total : Nat} {acc records : List Record}
    (h : packedRecords total acc b = .ok records) (hacc : ∀ record ∈ acc, record.IsNormal) :
    ∀ record ∈ records, record.IsNormal := by
  fun_induction packedRecords total acc b with
  | case1 acc =>
    cases h
    exact fun record hmem => hacc record (List.mem_reverse.1 hmem)
  | case2 acc b _ entry rest hread _ record hrecord ih =>
    -- packed entries come from a reader as well
    have hentry : entry.Canonical := (yields_value maxDepth b).of_done hread
    exact ih h (List.forall_mem_cons.2 ⟨isNormal_of_recordOf hrecord hentry, hacc⟩)
  | case3 | case4 | case5 => cases h

/-- The parts of a canonical message make normal records, in each of its shapes. -/
private theorem isNormal_of_recordsOfShape {second : Value} {rest : List Value}
    {records : List Record} (h : recordsOfShape second rest = .ok records)
    (hsecond : second.Canonical) (hrest : ∀ v ∈ rest, v.Canonical) :
    ∀ record ∈ records, record.IsNormal := by
  have hthird : ∀ v ∈ rest.head?, v.Canonical := fun v hv => hrest v (List.mem_of_mem_head? hv)
  rw [recordsOfShape.eq_def] at h
  split at h
  · rename_i time
    obtain ⟨fields, hfields, h⟩ := exists_ok_of_bind h
    cases h
    exact List.forall_mem_singleton.2 (isNormal_of_fieldsOf hfields hthird time)
  · obtain ⟨time, -, h⟩ := exists_ok_of_bind h
    obtain ⟨fields, hfields, h⟩ := exists_ok_of_bind h
    cases h
    exact List.forall_mem_singleton.2 (isNormal_of_fieldsOf hfields hthird time)
  · exact isNormal_of_recordsOf h (canonical_array.1 hsecond) (List.forall_mem_nil _)
  · exact isNormal_of_packedRecords h (List.forall_mem_nil _)
  · cases h

private theorem isNormal_of_ofValue {v : Value} (h : RecordSet.ofValue v = .ok set)
    (hcanonical : v.Canonical) : ∀ record ∈ set.records, record.IsNormal := by
  rw [RecordSet.ofValue.eq_def] at h
  split at h
  · rename_i tag second rest
    obtain ⟨_, -, h⟩ := exists_ok_of_bind h
    obtain ⟨records, hrecords, h⟩ := exists_ok_of_bind h
    cases h
    obtain ⟨-, hparts⟩ := List.forall_mem_cons.1 (canonical_array.1 hcanonical)
    obtain ⟨hsecond, hrest⟩ := List.forall_mem_cons.1 hparts
    exact isNormal_of_recordsOfShape hrecords hsecond hrest
  · cases h
  · cases h

/-- The records of a message that is accepted are normal. -/
theorem isNormal_of_decode {n : Nat} (h : decode b = .message set n) :
    ∀ record ∈ set.records, record.IsNormal := by
  obtain ⟨_, _, v, after, -, hread, hset⟩ := exists_read_of_message h
  rw [decodingOf] at hset
  split at hset
  · rename_i hvalue
    cases hset
    exact isNormal_of_ofValue hvalue (Codec.canonical_of_read hread)
  · cases hset

/-! ### Record sets come back -/

/-- **Record sets are messages.**  A record set decodes to itself if each of its records was made
from fields whose maps are in order and whose signed integers are negative.  So does the record set
of every message that is accepted.  This is so within the bounds of the format: no more containers
inside one another than a reader allows, and lengths of four bytes. -/
theorem decode_writeRecordSet :
    (∀ set : RecordSet,
      (∀ record ∈ set.records, ∃ time fields, record = Record.ofFields time fields ∧
        (Value.map fields).Ordered ∧ (Value.map fields).IntsNegative) →
      set.toValue.depth ≤ maxDepth → set.toValue.Writable →
        decode (writeRecordSet set) = .message set (writeRecordSet set).length) ∧
    ∀ (b : Bytes) (set : RecordSet) (n : Nat), decode b = .message set n →
      set.toValue.depth ≤ maxDepth → set.toValue.Writable →
        decode (writeRecordSet set) = .message set (writeRecordSet set).length := by
  refine ⟨fun set hmade hdepth hfits => ?_, fun b set n h hdepth hfits => ?_⟩
  · refine decode_of_isNormal (fun record hmem => ?_) hdepth hfits
    obtain ⟨time, fields, rfl, hordered, hneg⟩ := hmade record hmem
    exact Record.isNormal_ofFields time (canonical_of_ordered _ hordered hneg)
  · exact decode_of_isNormal (isNormal_of_decode h) hdepth hfits

set_option maxRecDepth 4000 in
/-- Two record sets with one record each: the fields of the first one were made with raw bytes, and
the second one is that of the JSON text `["a",16,{"k":-1}]`. -/
theorem decode_writeRecordSet_record :
    let made : RecordSet := ⟨"a", [Record.ofFields 16 [("k", .binary [0x78])]]⟩
    let accepted : RecordSet := ⟨"a", [⟨16, [("k", .int (-1))]⟩]⟩
    let text : Bytes := [0x5B, 0x22, 0x61, 0x22, 0x2C, 0x31, 0x36, 0x2C, 0x7B, 0x22, 0x6B, 0x22,
      0x3A, 0x2D, 0x31, 0x7D, 0x5D]
    made.records = [⟨16, [("k", .text "x")]⟩] ∧
      decode (writeRecordSet made) = .message made (writeRecordSet made).length ∧
      decode text = .message accepted 17 ∧
      decode (writeRecordSet accepted) = .message accepted (writeRecordSet accepted).length := by
  intro made accepted text
  have hfits (fields : Fields) (h : (Value.map fields).Writable) :
      (RecordSet.toValue ⟨"a", [⟨16, fields⟩]⟩).Writable := by
    have htag : (Utf8.encode "a").length < 2 ^ 32 := by decide
    exact ⟨by simp, htag, ⟨by simp, ⟨by simp, trivial, h, trivial⟩, trivial⟩, trivial⟩
  have hkey : (Utf8.encode "k").length < 2 ^ 32 := by decide
  have htext : (Utf8.encode "x").length < 2 ^ 32 := by decide
  have hmade : made.records = [⟨16, [("k", .text "x")]⟩] := by cbv
  have haccepted : decode text = .message accepted 17 := by with_unfolding_all rfl
  refine ⟨hmade, decode_writeRecordSet.1 made ?_ ?_ ?_, haccepted,
    decode_writeRecordSet.2 text accepted 17 haccepted (by decide)
      (hfits _ ⟨by decide, hkey, trivial, trivial⟩)⟩
  · refine List.forall_mem_singleton.2 ⟨16, [("k", .binary [0x78])], rfl, ⟨?_, trivial, trivial⟩,
      trivial, trivial⟩
    exact List.pairwise_singleton _ _
  · rw [RecordSet.toValue, hmade]
    decide
  · rw [RecordSet.toValue, hmade]
    exact hfits _ ⟨by decide, hkey, htext, trivial⟩

end Message

end ForwardIntake
