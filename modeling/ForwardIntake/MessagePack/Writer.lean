import ForwardIntake.Record

/-!
# Writing MessagePack

Values and record sets as MessagePack.  Every integer and every length takes the smallest form that
holds it; floats always take eight bytes.  A record is written as the pair of its time and its
fields, a record set as the pair of its tag and its records, so a written record set has the shape
of a forward message.
-/

namespace ForwardIntake

namespace MessagePack

/-! ### Scalars -/

/-- A marker and a big-endian word. -/
def marked (marker : UInt8) (width n : Nat) : Bytes :=
  marker :: Bytes.bigEndian width n

/-- A non-negative integer. -/
def writeUInt (n : Nat) : Bytes :=
  if n < 0x80 then [UInt8.ofNat n]
  else if n < 0x100 then marked 0xCC 1 n
  else if n < 0x10000 then marked 0xCD 2 n
  else if n < 0x100000000 then marked 0xCE 4 n
  else marked 0xCF 8 n

/-- The two's complement of an integer among the words below `count`. -/
def complement (count : Nat) (n : Int) : Nat :=
  (n % count).toNat

/-- An integer of either sign. -/
def writeInt (n : Int) : Bytes :=
  if 0 ≤ n then writeUInt n.toNat
  else if -0x20 ≤ n then [UInt8.ofNat (complement 0x100 n)]
  else if -0x80 ≤ n then marked 0xD0 1 (complement 0x100 n)
  else if -0x8000 ≤ n then marked 0xD1 2 (complement 0x10000 n)
  else if -0x80000000 ≤ n then marked 0xD2 4 (complement 0x100000000 n)
  else marked 0xD3 8 (complement 0x10000000000000000 n)

/-! ### Lengths -/

/-- The head of text of `n` bytes. -/
def textHead (n : Nat) : Bytes :=
  if n < 0x20 then [UInt8.ofNat (0xA0 + n)]
  else if n < 0x100 then marked 0xD9 1 n
  else if n < 0x10000 then marked 0xDA 2 n
  else marked 0xDB 4 n

/-- The head of `n` raw bytes. -/
def binaryHead (n : Nat) : Bytes :=
  if n < 0x100 then marked 0xC4 1 n
  else if n < 0x10000 then marked 0xC5 2 n
  else marked 0xC6 4 n

/-- The head of an array of `n` items. -/
def arrayHead (n : Nat) : Bytes :=
  if n < 0x10 then [UInt8.ofNat (0x90 + n)]
  else if n < 0x10000 then marked 0xDC 2 n
  else marked 0xDD 4 n

/-- The head of a map of `n` fields. -/
def mapHead (n : Nat) : Bytes :=
  if n < 0x10 then [UInt8.ofNat (0x80 + n)]
  else if n < 0x10000 then marked 0xDE 2 n
  else marked 0xDF 4 n

/-! ### Values -/

/-- A text. -/
def writeText (s : String) : Bytes :=
  let content := Utf8.encode s
  textHead content.length ++ content

mutual

/-- A value. -/
def write : Value → Bytes
  | .nil => [0xC0]
  | .bool false => [0xC2]
  | .bool true => [0xC3]
  | .int n => writeInt n.toInt
  | .uint n => writeUInt n.toNat
  | .float x => marked 0xCB 8 x.bits.toNat
  | .text s => writeText s
  | .binary b => binaryHead b.length ++ b
  | .array items => arrayHead items.length ++ writeItems items
  | .map fields => mapHead fields.length ++ writeFields fields

/-- Items, one after the other. -/
def writeItems : List Value → Bytes
  | [] => []
  | v :: rest => write v ++ writeItems rest

/-- Keys, each before its value. -/
def writeFields : List (String × Value) → Bytes
  | [] => []
  | (k, v) :: rest => writeText k ++ (write v ++ writeFields rest)

end

/-! ### Record sets -/

/-- A record: its time and its fields. -/
def writeRecord (record : Record) : Bytes :=
  arrayHead 2 ++ (writeUInt record.time.toNat ++ write (.map record.fields))

/-- A record set: its tag and its records. -/
def writeRecordSet (set : RecordSet) : Bytes :=
  arrayHead 2 ++ (writeText set.tag ++
    (arrayHead set.records.length ++ set.records.flatMap writeRecord))

end MessagePack

end ForwardIntake
