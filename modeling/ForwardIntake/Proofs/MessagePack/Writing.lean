import ForwardIntake.MessagePack.Reader
import ForwardIntake.MessagePack.Writer
import ForwardIntake.Proofs.Value.Received

/-!
# Reading what was written

A written value is read back, as `Value.received`, from the front of any bytes, provided that it is
nested no deeper than is allowed and that its lengths fit the words that the format has for them
(`Value.Writable`).

The heads are read back first, one lemma for each sort of head; then a value in one case for each of
its constructors (`value_write`), together with the items and the fields of containers.  If its maps
are in order it comes back unchanged but for the kind of some integers (`reader_run_write`).
-/

namespace ForwardIntake

namespace Value

mutual

/-- Every length in the value fits a word of four bytes. -/
@[simp] def Writable : Value → Prop
  | .text s => (Utf8.encode s).length < 2 ^ 32
  | .binary b => b.length < 2 ^ 32
  | .array items => items.length < 2 ^ 32 ∧ ItemsWritable items
  | .map fields => fields.length < 2 ^ 32 ∧ FieldsWritable fields
  | _ => True

/-- Every length in the items fits a word of four bytes. -/
@[simp] def ItemsWritable : List Value → Prop
  | [] => True
  | v :: rest => Writable v ∧ ItemsWritable rest

/-- Every length in the keys and the values of the fields fits a word of four bytes. -/
@[simp] def FieldsWritable : List (String × Value) → Prop
  | [] => True
  | (k, v) :: rest => (Utf8.encode k).length < 2 ^ 32 ∧ Writable v ∧ FieldsWritable rest

end

end Value

namespace MessagePack

open Value

variable {n : Nat} {rest : Bytes}

/-! ### Words -/

/-- A number that fits the word behind a marker is read back from it. -/
private theorem word_bigEndian (width : Nat) (make : Nat → Head) (h : n < Bytes.wordCount width) :
    word width make (Bytes.bigEndian width n ++ rest) = .done (make n) rest := by
  have hsplit := Bytes.split?_append (Bytes.bigEndian width n) rest
  rw [Bytes.length_bigEndian] at hsplit
  simp only [word, hsplit, Bytes.toNat_bigEndian_of_lt h]

/-- As many bytes are read as a length announces. -/
@[simp] private theorem payload_append {α : Type} (make : Bytes → α) (content : Bytes) :
    payload content.length make (content ++ rest) = .done (make content) rest := by
  rw [payload, Bytes.split?_append]

/-- The two's complement of a negative integer. -/
private theorem complement_of_neg {count : Nat} {n : Int} (hlow : -count ≤ n) (hneg : n < 0) :
    complement count n = (n + count).toNat := by
  rw [complement, ← Int.add_emod_right, Int.emod_eq_of_lt (by omega) (by omega)]

/-- The two's complement of a negative integer reads as that integer. -/
private theorem signed_complement {half : Nat} {n : Int} (hlow : -half ≤ n) (hneg : n < 0) :
    signed half (complement (2 * half) n) = n := by
  rw [complement_of_neg (by omega) hneg, signed, if_neg (by omega)]
  omega

/-! ### Heads -/

/-- What a marker announces that has no word behind it and stands for a number. -/
def bareHead (n : Nat) : Head :=
  if n < 0x80 then .integer n
  else if n < 0x90 then .map (n - 0x80)
  else if n < 0xA0 then .array (n - 0x90)
  else if n < 0xC0 then .text (n - 0xA0)
  else .integer (signed 0x80 n)

/-- A marker without a word is read back. -/
private theorem head_ofNat (h : n < 0xC0 ∨ 0xE0 ≤ n ∧ n < 0x100) :
    head (UInt8.ofNat n :: rest) = .done (bareHead n) rest := by
  have hbyte : n < 0x100 := by omega
  have hmarker : (UInt8.ofNat n).toNat = n := UInt8.toNat_ofNat_of_lt hbyte
  simp only [head, hmarker, bareHead]
  grind

/-- The head of a text is read back, however long the text is. -/
private theorem head_textHead (h : n < 2 ^ 32) :
    head (textHead n ++ rest) = .done (.text n) rest := by
  rw [textHead]
  split
  · rename_i hshort
    rw [List.singleton_append, head_ofNat (by omega), bareHead]
    grind
  · split
    · rename_i hshort
      exact word_bigEndian 1 .text hshort
    · split
      · rename_i hshort
        exact word_bigEndian 2 .text hshort
      · exact word_bigEndian 4 .text h

/-- The head of raw bytes is read back. -/
private theorem head_binaryHead (h : n < 2 ^ 32) :
    head (binaryHead n ++ rest) = .done (.binary n) rest := by
  rw [binaryHead]
  split
  · rename_i hshort
    exact word_bigEndian 1 .binary hshort
  · split
    · rename_i hshort
      exact word_bigEndian 2 .binary hshort
    · exact word_bigEndian 4 .binary h

/-- The head of an array is read back. -/
private theorem head_arrayHead (h : n < 2 ^ 32) :
    head (arrayHead n ++ rest) = .done (.array n) rest := by
  rw [arrayHead]
  split
  · rename_i hshort
    rw [List.singleton_append, head_ofNat (by omega), bareHead]
    grind
  · split
    · rename_i hshort
      exact word_bigEndian 2 .array hshort
    · exact word_bigEndian 4 .array h

/-- The head of a map is read back. -/
private theorem head_mapHead (h : n < 2 ^ 32) : head (mapHead n ++ rest) = .done (.map n) rest := by
  rw [mapHead]
  split
  · rename_i hshort
    rw [List.singleton_append, head_ofNat (by omega), bareHead]
    grind
  · split
    · rename_i hshort
      exact word_bigEndian 2 .map hshort
    · exact word_bigEndian 4 .map h

/-- An unsigned integer is read back, whichever of the five forms it has. -/
private theorem head_writeUInt (h : n < 2 ^ 64) :
    head (writeUInt n ++ rest) = .done (.integer n) rest := by
  rw [writeUInt]
  split
  · rename_i hshort
    rw [List.singleton_append, head_ofNat (by omega), bareHead, if_pos hshort]
  · split
    · rename_i hshort
      exact word_bigEndian 1 (fun n => .integer n) hshort
    · split
      · rename_i hshort
        exact word_bigEndian 2 (fun n => .integer n) hshort
      · split
        · rename_i hshort
          exact word_bigEndian 4 (fun n => .integer n) hshort
        · exact word_bigEndian 8 (fun n => .integer n) h

/-- A negative integer as a marker with a word. -/
private theorem word_complement (width half : Nat) {n : Int}
    (hwidth : Bytes.wordCount width = 2 * half) (hlow : -half ≤ n) (hneg : n < 0) :
    word width (fun n => .integer (signed half n))
        (Bytes.bigEndian width (complement (2 * half) n) ++ rest) = .done (.integer n) rest := by
  have hfits : complement (2 * half) n < Bytes.wordCount width := by
    rw [hwidth, complement_of_neg (by omega) hneg]
    omega
  rw [word_bigEndian width _ hfits, signed_complement hlow hneg]

/-- An integer is read back, whichever form it has. -/
private theorem head_writeInt {n : Int} (hlow : -2 ^ 63 ≤ n) (hhigh : n < 2 ^ 64) :
    head (writeInt n ++ rest) = .done (.integer n) rest := by
  rw [writeInt]
  split
  · rename_i hpos
    rw [head_writeUInt (by omega), Int.toNat_of_nonneg hpos]
  · rename_i hneg
    have hneg := Int.not_le.1 hneg
    split
    · rename_i hshort
      have hmarker : complement 0x100 n = (n + 0x100).toNat := complement_of_neg (by omega) hneg
      have hsigned : signed 0x80 (complement 0x100 n) = n :=
        signed_complement (n := n) (by omega) hneg
      rw [List.singleton_append, head_ofNat (by omega), bareHead, hsigned]
      grind
    · split
      · rename_i hshort
        exact word_complement 1 0x80 rfl hshort hneg
      · split
        · rename_i hshort
          exact word_complement 2 0x8000 rfl hshort hneg
        · split
          · rename_i hshort
            exact word_complement 4 0x80000000 rfl hshort hneg
          · exact word_complement 8 0x8000000000000000 rfl hlow hneg

/-! ### Values -/

/-- An unsigned integer that is read is an unsigned value. -/
@[simp] private theorem integerValue_toNat (n : UInt64) : integerValue n.toNat = .uint n := by
  rw [integerValue, if_pos (Int.natCast_nonneg _), Int.toNat_natCast, UInt64.ofNat_toNat]

/-- A signed integer that is read is unsigned unless it is negative. -/
@[simp] private theorem integerValue_toInt (n : Int64) : integerValue n.toInt = ofInt64 n := by
  rw [integerValue, ofInt64_eq, Int64.ofInt_toInt]

/-- A key is read back, as a text is. -/
private theorem key_writeText {room : Nat} {k : String} (h : (Utf8.encode k).length < 2 ^ 32) :
    key room (writeText k ++ rest) = .done k rest := by
  rw [key, writeText, List.append_assoc, head_textHead h]
  simp

/-! Reading many things is reading the first one and then the others. -/

/-- An item is read and then the others. -/
private theorem items_of_done {item : Bytes → Reading Error Value} {acc : List Value}
    {b after : Bytes} {v : Value} (h : item b = .done v after) :
    items item (n + 1) acc b = items item n (v :: acc) after := by
  rw [items, h]

/-- A field is read and then the others. -/
private theorem fields_of_done {key : Bytes → Reading Error String}
    {item : Bytes → Reading Error Value} {acc : Fields} {b mid after : Bytes} {k : String}
    {v : Value} (hkey : key b = .done k mid) (hitem : item mid = .done v after) :
    fields key item (n + 1) acc b = fields key item n (acc.insert k v) after := by
  rw [fields, hkey]
  simp only [hitem]

mutual

/-- **A written value is read back.** -/
theorem value_write : (v : Value) → (room : Nat) → v.depth ≤ room → v.Writable →
    (rest : Bytes) → value room (write v ++ rest) = .done v.received rest
  | .nil, room, _, _, rest => by rw [value.eq_def]; rfl
  | .bool false, room, _, _, rest => by rw [value.eq_def]; rfl
  | .bool true, room, _, _, rest => by rw [value.eq_def]; rfl
  | .int n, room, _, _, rest => by
    have := n.toInt_lt
    have := n.le_toInt
    rw [write, value.eq_def, head_writeInt (by omega) (by omega)]
    simp only [received, integerValue_toInt]
  | .uint n, room, _, _, rest => by
    have := n.toNat_lt
    rw [write, value.eq_def, head_writeUInt (by omega)]
    simp only [received, integerValue_toNat]
  | .float x, room, _, _, rest => by
    have hhead : head (write (.float x) ++ rest) = .done (.float x) rest := by
      refine (word_bigEndian 8 (fun n => .float ⟨UInt64.ofNat n⟩) x.bits.toNat_lt).trans ?_
      rw [UInt64.ofNat_toNat]
    rw [value.eq_def, hhead]
    rfl
  | .text s, room, _, hfits, rest => by
    rw [write, writeText, List.append_assoc, value.eq_def, head_textHead hfits]
    simp only [payload_append, textValue, Utf8.decode?_encode, received]
  | .binary b, room, _, hfits, rest => by
    rw [write, List.append_assoc, value.eq_def, head_binaryHead hfits]
    simp only [payload_append, received]
  | .array items, room, hdepth, hfits, rest => by
    cases room with
    | zero => exact absurd hdepth (Nat.not_succ_le_zero _)
    | succ room =>
      rw [write, List.append_assoc, value, head_arrayHead hfits.1]
      simp only [items_writeItems items room (Nat.le_of_succ_le_succ hdepth) hfits.2 [] rest]
      rfl
  | .map fields, room, hdepth, hfits, rest => by
    cases room with
    | zero => exact absurd hdepth (Nat.not_succ_le_zero _)
    | succ room =>
      rw [write, List.append_assoc, value, head_mapHead hfits.1]
      simp only [fields_writeFields fields room (Nat.le_of_succ_le_succ hdepth) hfits.2 [] rest]
      rfl

theorem items_writeItems : (vs : List Value) → (room : Nat) → itemsDepth vs ≤ room →
    ItemsWritable vs → (acc : List Value) → (rest : Bytes) →
    items (value room) vs.length acc (writeItems vs ++ rest) =
      .done (acc.reverse ++ receivedItems vs) rest
  | [], room, _, _, acc, rest => by
    rw [receivedItems, List.append_nil]
    rfl
  | v :: vs, room, hdepth, hfits, acc, rest => by
    rw [itemsDepth, Nat.max_le] at hdepth
    have hfirst := value_write v room hdepth.1 hfits.1 (writeItems vs ++ rest)
    rw [writeItems, List.append_assoc, List.length_cons, items_of_done hfirst,
      items_writeItems vs room hdepth.2 hfits.2, receivedItems]
    simp only [List.reverse_cons, List.append_assoc, List.singleton_append]

theorem fields_writeFields : (fs : List (String × Value)) → (room : Nat) → fieldsDepth fs ≤ room →
    FieldsWritable fs → (acc : Fields) → (rest : Bytes) →
    fields (key room) (value room) fs.length acc (writeFields fs ++ rest) =
      .done ((receivedFields fs).foldl (fun acc field => acc.insert field.1 field.2) acc) rest
  | [], room, _, _, acc, rest => rfl
  | (k, v) :: fs, room, hdepth, hfits, acc, rest => by
    rw [fieldsDepth, Nat.max_le] at hdepth
    have hkey : key room (writeText k ++ (write v ++ (writeFields fs ++ rest))) = .done k _ :=
      key_writeText hfits.1
    have hfirst := value_write v room hdepth.1 hfits.2.1 (writeFields fs ++ rest)
    rw [writeFields, List.append_assoc, List.append_assoc, List.length_cons,
      fields_of_done hkey hfirst, fields_writeFields fs room hdepth.2 hfits.2.2, receivedFields]
    rfl

end

/-- **Reading undoes writing.**  A value whose maps are in order is read back from the front of any
bytes, just what was written of it is used up, and nothing has changed but that signed integers that
are not negative have become unsigned ones. -/
theorem reader_run_write (v : Value) (hordered : v.Ordered) (hdepth : v.depth ≤ maxDepth)
    (hfits : v.Writable) (rest : Bytes) :
    reader.run (write v ++ rest) = .done v.unsigned rest := by
  rw [← received_of_ordered v hordered]
  exact value_write v maxDepth hdepth hfits rest

/-- Integers at the bounds of their widths, raw bytes that spell text, and a NaN with a payload;
behind the map stands a marker that is never used. -/
theorem reader_run_write_mixed :
    let sent : Fields := [("k", .array [.int 127, .int 256, .int (-32), .int (-33), .uint 0xFFFF])]
    let read : Fields :=
      [("k", .array [.uint 127, .uint 256, .int (-32), .int (-33), .uint 0xFFFF])]
    let others : Fields := [("é", .binary [0x68, 0x69]), ("ü", .float ⟨0x7FF8000000000001⟩)]
    reader.run (write (.map (("a", .map sent) :: others)) ++ [0xC1]) =
      .done (.map (("a", .map read) :: others)) [0xC1] := by
  intro sent read others
  have hordered : (Value.map (("a", .map sent) :: others)).Ordered :=
    ⟨by decide, ⟨by decide, ⟨trivial, trivial, trivial, trivial, trivial, trivial⟩, trivial⟩,
      trivial, trivial, trivial⟩
  have hsent : (Value.map sent).Writable :=
    ⟨by decide, by decide, ⟨by decide, trivial, trivial, trivial, trivial, trivial, trivial⟩,
      trivial⟩
  have hothers : FieldsWritable others :=
    ⟨by decide, by simp [Writable], by decide, trivial, trivial⟩
  exact reader_run_write _ hordered (by decide) ⟨by decide, by decide, hsent, hothers⟩ [0xC1]

end MessagePack

end ForwardIntake
