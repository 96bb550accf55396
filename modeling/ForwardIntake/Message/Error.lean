import ForwardIntake.Message.Codec
import ForwardIntake.Numeric.Layout

/-!
# Errors in messages

Why a message is refused: its bytes are no value of its codec, or its value has not the form of a
forward message.
-/

namespace ForwardIntake

/-- What is wrong with an entry of a message, a pair of a time and fields. -/
inductive EntryError where
  /-- The time is no number. -/
  | time (found : Value.Kind)
  /-- The fields are no map. -/
  | fields (found : Value.Kind)
  /-- The fields are missing. -/
  | noFields
  /-- The entry is an array, but not a pair. -/
  | length (found : Nat)
  /-- The entry is no array. -/
  | shape (found : Value.Kind)
  /-- The packed entries end inside the entry that begins at `offset`. -/
  | truncated (offset total : Nat)
  deriving DecidableEq, Repr

/-- The text of an error in an entry. -/
def EntryError.message : EntryError → String
  | .time found => "expected timestamp, got " ++ found.name
  | .fields found => "expected record map, got " ++ found.name
  | .noFields => "missing record map"
  | .length found => "expected [time, record] entry, got " ++ toString found ++ " elements"
  | .shape found => "expected [time, record] entry, got " ++ found.name
  | .truncated offset total =>
    "truncated entry at offset " ++ toString offset ++ " of " ++ toString total
      ++ "-byte packed blob"

/-- Why a message is refused. -/
inductive DecodeError where
  /-- The message is no array. -/
  | notArray (found : Value.Kind)
  /-- The message is an array of fewer than two elements. -/
  | tooShort (found : Nat)
  /-- The tag is neither text nor raw bytes. -/
  | tag (found : Value.Kind)
  /-- The second element is no time, no list of entries and no packed entries. -/
  | unknownShape (found : Value.Kind)
  /-- A float that is no time. -/
  | time (found : Binary64)
  | entry (error : EntryError)
  | codec (error : CodecError)
  deriving DecidableEq, Repr

/-- The text of an error. -/
def DecodeError.message : DecodeError → String
  | .notArray found => "malformed message: expected array, got " ++ found.name
  | .tooShort found =>
    "malformed message: expected at least 2 elements, got " ++ toString found
  | .tag found => "failed to decode tag field: expected string, got " ++ found.name
  | .unknownShape found => "unknown message shape: second element is " ++ found.name
  | .time found => "invalid timestamp: " ++ FloatLayout.plain.write found
  | .entry error => "failed to decode record set: " ++ error.message
  | .codec (.messagePack error) => "msgpack: " ++ error.message
  | .codec (.json error) => "json: " ++ error.message

end ForwardIntake
