import ForwardIntake.Json.Text
import ForwardIntake.Numeric.Layout
import ForwardIntake.Record

/-!
# Writing JSON

Values and record sets as compact JSON text, without any space.  Raw bytes become an array of
numbers, and a float that is no number becomes `null`.
-/

namespace ForwardIntake

namespace Json

/-- ASCII text as bytes. -/
def ascii (s : String) : Bytes :=
  s.toList.map fun c => UInt8.ofNat c.toNat

/-- A natural number. -/
def writeNat (n : Nat) : Bytes :=
  ascii (toString n)

/-- An integer. -/
def writeInt (n : Int) : Bytes :=
  if n < 0 then 0x2D :: writeNat n.natAbs else writeNat n.natAbs

/-- A float, or `null` for an infinity or a NaN. -/
def writeFloat (x : Binary64) : Bytes :=
  if x.isFinite then ascii (FloatLayout.compact.writeFinite x) else ascii "null"

/-- Texts with a comma between any two. -/
def separated : List Bytes → Bytes
  | [] => []
  | first :: [] => first
  | first :: rest => first ++ (0x2C :: separated rest)

/-- An array of written elements. -/
def writeArray (elements : List Bytes) : Bytes :=
  0x5B :: (separated elements ++ [0x5D])

/-- A field of an object, its value written. -/
def writeField (key : String) (value : Bytes) : Bytes :=
  writeText key ++ (0x3A :: value)

/-- An object of written fields. -/
def writeObject (fields : List Bytes) : Bytes :=
  0x7B :: (separated fields ++ [0x7D])

mutual

/-- A value. -/
def write : Value → Bytes
  | .nil => ascii "null"
  | .bool true => ascii "true"
  | .bool false => ascii "false"
  | .int n => writeInt n.toInt
  | .uint n => writeNat n.toNat
  | .float x => writeFloat x
  | .text s => writeText s
  | .binary b => writeArray (b.map fun byte => writeNat byte.toNat)
  | .array items => writeArray (writeItems items)
  | .map fields => writeObject (writeFields fields)

/-- The elements of an array. -/
def writeItems : List Value → List Bytes
  | [] => []
  | v :: rest => write v :: writeItems rest

/-- The fields of an object. -/
def writeFields : List (String × Value) → List Bytes
  | [] => []
  | (k, v) :: rest => writeField k (write v) :: writeFields rest

end

/-- A record as an object. -/
def writeRecord (record : Record) : Bytes :=
  writeObject
    [writeField "timestamp" (writeNat record.time.toNat),
      writeField "fields" (write (.map record.fields))]

/-- A record set as an object. -/
def writeRecordSet (set : RecordSet) : Bytes :=
  writeObject
    [writeField "tag" (writeText set.tag),
      writeField "records" (writeArray (set.records.map writeRecord))]

end Json

end ForwardIntake
