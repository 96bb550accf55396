import ForwardIntake.Message.Error
import ForwardIntake.Record

/-!
# The three shapes of a message

A message is an array whose first element is the tag.  The second element decides its shape: a time
followed by fields is a single event, an array is a list of entries, and raw bytes are entries
packed one behind the other in MessagePack, without any count.  Whatever comes after that is an
option and is ignored.

`RecordSet.ofValue` reads the records of a message off its value.  Its errors come in the order in
which the parts are looked at: the message, the tag, the shape, then entry by entry.
-/

namespace ForwardIntake

namespace Message

/-! ### The parts of an event -/

/-- The text of a tag. -/
def tagOf : Value → Except DecodeError String
  | .text s => .ok s
  | .binary b => .ok (Utf8.decodeLossy b)
  | v => .error (.tag v.kind)

/-- The time that a float stands for, its fraction cut off. -/
def timeOfFloat (x : Binary64) : Except DecodeError UInt64 :=
  match x.truncate? with
  | some time => .ok time
  | none => .error (.time x)

/-- The time of an entry. -/
def timeOf : Value → Except DecodeError UInt64
  | .uint time => .ok time
  | .float x => timeOfFloat x
  | v => .error (.entry (.time v.kind))

/-- The fields of an event, if there is a value for them. -/
def fieldsOf : Option Value → Except DecodeError Fields
  | some (.map fields) => .ok fields
  | some v => .error (.entry (.fields v.kind))
  | none => .error (.entry .noFields)

/-! ### Entries -/

/-- The record of an entry. -/
def recordOf : Value → Except DecodeError Record
  | .array [time, fields] => do
    let time ← timeOf time
    let fields ← fieldsOf (some fields)
    return Record.ofFields time fields
  | .array items => .error (.entry (.length items.length))
  | v => .error (.entry (.shape v.kind))

/-- The records of entries, after those in `acc`, last first. -/
def recordsOf (acc : List Record) : List Value → Except DecodeError (List Record)
  | [] => .ok acc.reverse
  | entry :: rest =>
    match recordOf entry with
    | .ok record => recordsOf (record :: acc) rest
    | .error error => .error error

/-- The records of packed entries, after those in `acc`, last first.  `total` is the number of bytes
of the whole, and each entry is read with its full depth. -/
def packedRecords (total : Nat) (acc : List Record) (b : Bytes) :
    Except DecodeError (List Record) :=
  if b = [] then .ok acc.reverse
  else
    match h : MessagePack.reader.run b with
    | .done entry rest =>
      have := MessagePack.reader.progress h
      match recordOf entry with
      | .ok record => packedRecords total (record :: acc) rest
      | .error error => .error error
    | .incomplete => .error (.entry (.truncated (total - b.length) total))
    | .failed error => .error (.codec (.messagePack error))
termination_by b.length

/-- The records of packed entries. -/
def unpack (b : Bytes) : Except DecodeError (List Record) :=
  packedRecords b.length [] b

/-! ### Messages -/

/-- The records of a message, from its second element and the elements behind it. -/
def recordsOfShape (second : Value) (rest : List Value) : Except DecodeError (List Record) :=
  match second with
  | .uint time => do
    let fields ← fieldsOf rest.head?
    return [Record.ofFields time fields]
  | .float x => do
    let time ← timeOfFloat x
    let fields ← fieldsOf rest.head?
    return [Record.ofFields time fields]
  | .array entries => recordsOf [] entries
  | .binary b => unpack b
  | v => .error (.unknownShape v.kind)

end Message

/-- The record set of a message. -/
def RecordSet.ofValue : Value → Except DecodeError RecordSet
  | .array (tag :: second :: rest) => do
    let tag ← Message.tagOf tag
    let records ← Message.recordsOfShape second rest
    return ⟨tag, records⟩
  | .array items => .error (.tooShort items.length)
  | v => .error (.notArray v.kind)

end ForwardIntake
