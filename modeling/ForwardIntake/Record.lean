import ForwardIntake.Value.Basic

/-!
# Records

A record is one log event: a time in seconds and the fields of the event.  A record set is what one
message on the wire carries, its records all under one tag.  Records are made by `Record.ofFields`,
which normalizes the fields, so no record made that way holds raw bytes
(`Record.textual_ofFields`).
-/

namespace ForwardIntake

/-- One log event. -/
structure Record where
  /-- Seconds since the epoch. -/
  time : UInt64
  fields : Fields
  deriving Repr, Inhabited

namespace Record

/-- The record of an event, its fields normalized. -/
def ofFields (time : UInt64) (fields : Fields) : Record :=
  ⟨time, Value.normalizeFields fields⟩

/-- The value of a field. -/
def get? (key : String) (record : Record) : Option Value :=
  record.fields.get? key

/-- Equality of records, floats compared as numbers. -/
def numEq (a b : Record) : Bool :=
  a.time == b.time && Value.fieldsNumEq a.fields b.fields

/-- The records of a message hold no raw bytes. -/
theorem textual_ofFields (time : UInt64) (fields : Fields) :
    Value.FieldsTextual (ofFields time fields).fields :=
  Value.textual_normalizeFields fields

end Record

/-- The records of one message, under one tag. -/
structure RecordSet where
  tag : String
  records : List Record
  deriving Repr, Inhabited

namespace RecordSet

/-- The number of records. -/
def size (set : RecordSet) : Nat :=
  set.records.length

/-- Whether there is no record. -/
def isEmpty (set : RecordSet) : Bool :=
  set.records.isEmpty

/-- Equality of record sets, floats compared as numbers. -/
def numEq (a b : RecordSet) : Bool :=
  a.tag == b.tag && a.records.length == b.records.length
    && (a.records.zip b.records).all fun pair => pair.1.numEq pair.2

end RecordSet

/-- What a sink is given in one piece. -/
abbrev Batch := List RecordSet

/-- The number of records in a batch. -/
@[simp] def Batch.records : Batch → Nat
  | [] => 0
  | set :: rest => set.size + records rest

end ForwardIntake
