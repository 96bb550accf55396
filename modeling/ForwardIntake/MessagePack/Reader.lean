import ForwardIntake.Numeric.Layout
import ForwardIntake.Value.Basic
import ForwardIntake.Wire.Reading

/-!
# Reading MessagePack

One value is read from the front of a byte string.  Its head, the marker with the word behind it,
either is a whole value or announces a payload or a number of further values.  Heads are read in
order and nothing is looked at before its turn, so the first error wins and a missing byte is
noticed only where it is needed.

Text that is not well-formed UTF-8 becomes raw bytes.  Keys are text or raw bytes; extension types
are refused.  At most `maxDepth` containers may lie inside one another.
-/

namespace ForwardIntake

namespace MessagePack

/-! ### Errors -/

/-- What cannot be the key of a map. -/
inductive BadKey where
  | nil
  | boolean (b : Bool)
  | integer (n : Int)
  | float (x : Binary64)
  | array
  | map
  | extension
  deriving DecidableEq, Repr

/-- How a bad key is called in messages. -/
def BadKey.describe : BadKey → String
  | .nil => "unit value"
  | .boolean b => "boolean `" ++ (if b then "true" else "false") ++ "`"
  | .integer n => "integer `" ++ toString n ++ "`"
  | .float x => "floating point `" ++ x.withPoint ++ "`"
  | .array => "sequence"
  | .map => "map"
  | .extension => "newtype struct"

/-- Why bytes are not the beginning of a value. -/
inductive Error where
  /-- The marker that is never used. -/
  | reservedMarker
  /-- An extension type. -/
  | extension
  | badKey (key : BadKey)
  | tooDeep
  deriving DecidableEq, Repr

/-- The text of an error. -/
def Error.message : Error → String
  | .reservedMarker => "wrong msgpack marker Reserved"
  | .extension => "invalid type: newtype struct, expected a MessagePack or JSON value"
  | .badKey key => "invalid type: " ++ key.describe ++ ", expected a string map key"
  | .tooDeep => "depth limit exceeded"

/-! ### Heads -/

/-- What the marker and the word behind it announce. -/
inductive Head where
  | nil
  | bool (b : Bool)
  /-- An integer of either sign. -/
  | integer (n : Int)
  | float (x : Binary64)
  /-- Text of a number of bytes. -/
  | text (length : Nat)
  /-- Raw bytes, a number of them. -/
  | binary (length : Nat)
  /-- A number of values. -/
  | array (count : Nat)
  /-- A number of keys, each with a value. -/
  | map (count : Nat)
  | extension
  deriving DecidableEq, Repr

/-- A head that is made of a big-endian word. -/
def word (width : Nat) (make : Nat → Head) (b : Bytes) : Reading Error Head :=
  match Bytes.split? width b with
  | some (digits, rest) => .done (make (Bytes.toNat digits)) rest
  | none => .incomplete

/-- The number of a two's complement word; the words from `half` on are negative. -/
def signed (half n : Nat) : Int :=
  if n < half then n else (n : Int) - 2 * half

/-- Reads a head. -/
def head : Bytes → Reading Error Head
  | [] => .incomplete
  | marker :: rest =>
    let m := marker.toNat
    if m < 0x80 then .done (.integer m) rest
    else if m < 0x90 then .done (.map (m - 0x80)) rest
    else if m < 0xA0 then .done (.array (m - 0x90)) rest
    else if m < 0xC0 then .done (.text (m - 0xA0)) rest
    else if 0xE0 ≤ m then .done (.integer (signed 0x80 m)) rest
    else match m with
      | 0xC0 => .done .nil rest
      | 0xC1 => .failed .reservedMarker
      | 0xC2 => .done (.bool false) rest
      | 0xC3 => .done (.bool true) rest
      | 0xC4 => word 1 .binary rest
      | 0xC5 => word 2 .binary rest
      | 0xC6 => word 4 .binary rest
      | 0xC7 => word 1 (fun _ => .extension) rest
      | 0xC8 => word 2 (fun _ => .extension) rest
      | 0xC9 => word 4 (fun _ => .extension) rest
      | 0xCA => word 4 (fun n => .float (.ofBinary32 n)) rest
      | 0xCB => word 8 (fun n => .float ⟨UInt64.ofNat n⟩) rest
      | 0xCC => word 1 (fun n => .integer n) rest
      | 0xCD => word 2 (fun n => .integer n) rest
      | 0xCE => word 4 (fun n => .integer n) rest
      | 0xCF => word 8 (fun n => .integer n) rest
      | 0xD0 => word 1 (fun n => .integer (signed 0x80 n)) rest
      | 0xD1 => word 2 (fun n => .integer (signed 0x8000 n)) rest
      | 0xD2 => word 4 (fun n => .integer (signed 0x80000000 n)) rest
      | 0xD3 => word 8 (fun n => .integer (signed 0x8000000000000000 n)) rest
      | 0xD9 => word 1 .text rest
      | 0xDA => word 2 .text rest
      | 0xDB => word 4 .text rest
      | 0xDC => word 2 .array rest
      | 0xDD => word 4 .array rest
      | 0xDE => word 2 .map rest
      | 0xDF => word 4 .map rest
      | _ => .done .extension rest

/-- The word behind a marker leaves no more bytes than there were. -/
private theorem length_le_of_word {width : Nat} {make : Nat → Head} {b rest : Bytes} {h : Head}
    (done : word width make b = .done h rest) : rest.length ≤ b.length := by
  rw [word] at done
  split at done
  · rename_i split
    cases done
    exact Bytes.length_le_of_split? split
  · cases done

/-- A head has at least one byte. -/
private theorem head_progress {b rest : Bytes} {h : Head} (done : head b = .done h rest) :
    rest.length < b.length := by
  cases b with
  | nil => cases done
  | cons marker tail =>
    refine Nat.lt_succ_of_le ?_
    rw [head] at done
    repeat' split at done
    all_goals first
      | exact length_le_of_word done
      | (cases done; exact Nat.le_refl _)
      | cases done

/-! ### Values -/

/-- The value of an integer: a `uint` unless it is negative. -/
def integerValue (n : Int) : Value :=
  if 0 ≤ n then .uint (UInt64.ofNat n.toNat) else .int (Int64.ofInt n)

/-- The value of text on the wire: raw bytes where it is not well-formed UTF-8. -/
def textValue (b : Bytes) : Value :=
  match Utf8.decode? b with
  | some s => .text s
  | none => .binary b

/-- Reads a payload. -/
def payload {α : Type} (length : Nat) (make : Bytes → α) (b : Bytes) : Reading Error α :=
  match Bytes.split? length b with
  | some (content, rest) => .done (make content) rest
  | none => .incomplete

/-- Reads the key of a map in which `room` further containers may be entered. -/
def key (room : Nat) (b : Bytes) : Reading Error String :=
  (head b).bind fun head rest =>
    match head with
    | .text length | .binary length => payload length Utf8.decodeLossy rest
    | .nil => .failed (.badKey .nil)
    | .bool b => .failed (.badKey (.boolean b))
    | .integer n => .failed (.badKey (.integer n))
    | .float x => .failed (.badKey (.float x))
    -- a container is entered, at the cost of one level, before it is found to be no key
    | .array _ => .failed (if room = 0 then .tooDeep else .badKey .array)
    | .map _ => .failed (if room = 0 then .tooDeep else .badKey .map)
    | .extension => .failed (if room = 0 then .tooDeep else .badKey .extension)

/-- Reads a number of items, after those in `acc`, last first. -/
def items (item : Bytes → Reading Error Value) : Nat → List Value → Bytes →
    Reading Error (List Value)
  | 0, acc, b => .done acc.reverse b
  | n + 1, acc, b =>
    match item b with
    | .done value rest => items item n (value :: acc) rest
    | .incomplete => .incomplete
    | .failed error => .failed error

/-- Reads a number of fields and sets them in `acc`. -/
def fields (key : Bytes → Reading Error String) (item : Bytes → Reading Error Value) :
    Nat → Fields → Bytes → Reading Error Fields
  | 0, acc, b => .done acc b
  | n + 1, acc, b =>
    match key b with
    | .done k mid =>
      match item mid with
      | .done value rest => fields key item n (acc.insert k value) rest
      | .incomplete => .incomplete
      | .failed error => .failed error
    | .incomplete => .incomplete
    | .failed error => .failed error

/-- Reads a value in which `room` containers may lie inside one another. -/
def value (room : Nat) (b : Bytes) : Reading Error Value :=
  match head b with
  | .incomplete => .incomplete
  | .failed error => .failed error
  | .done head rest =>
    match head with
    | .nil => .done .nil rest
    | .bool b => .done (.bool b) rest
    | .integer n => .done (integerValue n) rest
    | .float x => .done (.float x) rest
    | .text length => payload length textValue rest
    | .binary length => payload length .binary rest
    | .array count =>
      match room with
      | 0 => .failed .tooDeep
      | room + 1 => (items (value room) count [] rest).map .array
    | .map count =>
      match room with
      | 0 => .failed .tooDeep
      | room + 1 => (fields (key room) (value room) count [] rest).map .map
    | .extension => .failed (if room = 0 then .tooDeep else .extension)

/-! ### Progress -/

private theorem length_le_of_payload {α : Type} {length : Nat} {make : Bytes → α} {b rest : Bytes}
    {a : α} (done : payload length make b = .done a rest) : rest.length ≤ b.length := by
  rw [payload] at done
  split at done
  · rename_i split
    cases done
    exact Bytes.length_le_of_split? split
  · cases done

/-- A key has at least one byte. -/
private theorem key_progress {room : Nat} {b rest : Bytes} {k : String}
    (done : key room b = .done k rest) : rest.length < b.length := by
  rw [key, Reading.bind_eq_done_iff] at done
  obtain ⟨h, mid, heq, done⟩ := done
  have := head_progress heq
  cases h with
  | text length => exact Nat.lt_of_le_of_lt (length_le_of_payload done) this
  | binary length => exact Nat.lt_of_le_of_lt (length_le_of_payload done) this
  | _ => cases done

/-- Items leave no more bytes than there were, if each of them has a byte. -/
private theorem length_le_of_items {item : Bytes → Reading Error Value}
    (progress : ∀ {b rest : Bytes} {v : Value}, item b = .done v rest → rest.length < b.length)
    {n : Nat} {acc result : List Value} {b rest : Bytes}
    (done : items item n acc b = .done result rest) : rest.length ≤ b.length := by
  induction n generalizing acc b with
  | zero => cases done; exact Nat.le_refl _
  | succ n ih =>
    rw [items] at done
    split at done
    · rename_i h
      exact Nat.le_trans (ih done) (Nat.le_of_lt (progress h))
    · cases done
    · cases done

/-- Fields leave no more bytes than there were, if each key and each value has a byte. -/
private theorem length_le_of_fields {key : Bytes → Reading Error String}
    {item : Bytes → Reading Error Value}
    (keyProgress : ∀ {b rest : Bytes} {k : String}, key b = .done k rest → rest.length < b.length)
    (progress : ∀ {b rest : Bytes} {v : Value}, item b = .done v rest → rest.length < b.length)
    {n : Nat} {acc result : Fields} {b rest : Bytes}
    (done : fields key item n acc b = .done result rest) : rest.length ≤ b.length := by
  induction n generalizing acc b with
  | zero => cases done; exact Nat.le_refl _
  | succ n ih =>
    rw [fields] at done
    split at done
    · rename_i hk
      split at done
      · rename_i hv
        exact Nat.le_trans (ih done)
          (Nat.le_of_lt (Nat.lt_trans (progress hv) (keyProgress hk)))
      · cases done
      · cases done
    · cases done
    · cases done

/-- A value has at least one byte. -/
theorem value_progress {room : Nat} {b rest : Bytes} {v : Value}
    (done : value room b = .done v rest) : rest.length < b.length := by
  induction room generalizing b rest v with
  | zero =>
    rw [value] at done
    split at done
    · cases done
    · cases done
    · rename_i hd
      have := head_progress hd
      split at done
      all_goals first
        | exact Nat.lt_of_le_of_lt (length_le_of_payload done) this
        | (cases done; exact this)
        | cases done
  | succ room ih =>
    rw [value] at done
    split at done
    · cases done
    · cases done
    · rename_i hd
      have := head_progress hd
      split at done
      case h_7 =>
        obtain ⟨_, done, -⟩ := Reading.map_eq_done_iff.1 done
        exact Nat.lt_of_le_of_lt (length_le_of_items ih done) this
      case h_8 =>
        obtain ⟨_, done, -⟩ := Reading.map_eq_done_iff.1 done
        exact Nat.lt_of_le_of_lt (length_le_of_fields key_progress ih done) this
      all_goals first
        | exact Nat.lt_of_le_of_lt (length_le_of_payload done) this
        | (cases done; exact this)
        | cases done

/-- How many containers may lie inside one another. -/
def maxDepth : Nat := 1023

/-- Reads one value. -/
def reader : Reader Error Value where
  run := value maxDepth
  progress := value_progress

end MessagePack

end ForwardIntake
