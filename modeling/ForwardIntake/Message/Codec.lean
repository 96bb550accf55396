import ForwardIntake.Json.Reader
import ForwardIntake.MessagePack.Reader

/-!
# Codecs

A connection may carry messages in two codecs, and the first byte of a message tells which one it
is in: a bracket or a brace opens JSON, anything else is MessagePack.
-/

namespace ForwardIntake

/-- The wire codec of a message. -/
inductive Codec where
  | messagePack
  | json
  deriving DecidableEq, Repr

/-- Why bytes are not the beginning of a value of a codec. -/
inductive CodecError where
  | messagePack (error : MessagePack.Error)
  | json (error : Json.Error)
  deriving DecidableEq, Repr

namespace Codec

/-- The codec of a message that begins with the given byte. -/
def sniff (first : UInt8) : Codec :=
  if first == 0x7B || first == 0x5B then .json else .messagePack

/-- Reads one value in a codec. -/
def read : Codec → Bytes → Reading CodecError Value
  | .messagePack, b => (MessagePack.reader.run b).mapError .messagePack
  | .json, b => (Json.read b).mapError .json

@[simp] theorem read_json (b : Bytes) : json.read b = (Json.read b).mapError .json :=
  rfl

/-- A value has at least one byte in either codec. -/
theorem read_progress {codec : Codec} {b rest : Bytes} {v : Value}
    (done : codec.read b = .done v rest) : rest.length < b.length := by
  cases codec with
  | messagePack => exact MessagePack.reader.progress (Reading.mapError_eq_done_iff.1 done)
  | json => exact Json.read_progress (Reading.mapError_eq_done_iff.1 done)

end Codec

end ForwardIntake
