import ForwardIntake.Proofs.Message.RecordSets

/-!
# What records hold

Values enter by two codecs and in three shapes, and text may come as raw bytes anywhere in them.
Whatever the buffer, the records that are handed on are settled: neither a wire nor a normalization
changes them any more (`Value.IsSettled`).  The parts of a settled value are settled, so at every
depth of a record there is text and no raw bytes, and a signed integer is negative
(`isClean_of_decode`).
-/

namespace ForwardIntake

namespace Value

/-! ### Parts of a value -/

/-- The value is another value, or lies within it at any depth. -/
inductive Within (part : Value) : Value → Prop where
  | self : Within part part
  | item {v : Value} {items : List Value} (hitem : v ∈ items) (h : Within part v) :
    Within part (.array items)
  | field {field : String × Value} {fields : Fields} (hfield : field ∈ fields)
    (h : Within part field.2) : Within part (.map fields)

/-- Sending or normalizing the value does not change it. -/
structure IsSettled (v : Value) : Prop where
  canonical : v.Canonical
  normalized : v.normalize = v

/-- Items are normal if and only if each of them is. -/
private theorem normalizeItems_eq_self {items : List Value} :
    normalizeItems items = items ↔ ∀ v ∈ items, v.normalize = v := by
  induction items with
  | nil => exact iff_of_true rfl (List.forall_mem_nil _)
  | cons v rest ih => simp [ih]

/-- Fields are normal if and only if each of their values is. -/
private theorem normalizeFields_eq_self {fields : Fields} :
    normalizeFields fields = fields ↔ ∀ field ∈ fields, field.2.normalize = field.2 := by
  rw [normalizeFields_eq_mapValues, Fields.mapValues_eq_self]

/-- The items of a settled array are settled. -/
private theorem IsSettled.item {items : List Value} (h : (Value.array items).IsSettled) {v : Value}
    (hitem : v ∈ items) : v.IsSettled :=
  ⟨canonical_array.1 h.canonical v hitem,
    normalizeItems_eq_self.1 (Value.array.inj h.normalized) v hitem⟩

/-- The fields of a settled map are settled. -/
private theorem IsSettled.field {fields : Fields} (h : (Value.map fields).IsSettled)
    {field : String × Value} (hfield : field ∈ fields) : field.2.IsSettled :=
  ⟨(canonical_of_map h.canonical).values field hfield,
    normalizeFields_eq_self.1 (Value.map.inj h.normalized) field hfield⟩

/-- The parts of a settled value are settled. -/
private theorem IsSettled.part {v part : Value} (h : v.IsSettled) (hpart : part.Within v) :
    part.IsSettled := by
  induction hpart with
  | self => exact h
  | item hitem _ ih => exact ih (h.item hitem)
  | field hfield _ ih => exact ih (h.field hfield)

/-! ### Clean values -/

/-- The value is no raw bytes and no signed integer that is not negative, and its text, or each of
its keys, is what its bytes in UTF-8 are read as. -/
def IsClean : Value → Prop
  | .binary _ => False
  | .int n => n < 0
  | .text s => Utf8.decode? (Utf8.encode s) = some s
  | .map fields => ∀ key ∈ Fields.keys fields, Utf8.decode? (Utf8.encode key) = some key
  | _ => True

/-- A canonical signed integer is negative. -/
private theorem neg_of_canonical_int {n : Int64} (h : (Value.int n).Canonical) : n < 0 := by
  rw [Canonical, received, ofInt64] at h
  split at h
  · cases h
  · rename_i hneg
    exact Int64.not_le.1 hneg

/-- A settled value is clean at its root. -/
private theorem IsSettled.isClean {v : Value} (h : v.IsSettled) : v.IsClean := by
  cases v with
  | binary b => cases h.normalized
  | int n => exact neg_of_canonical_int h.canonical
  | text s => exact Utf8.decode?_encode s
  | map fields => exact fun key _ => Utf8.decode?_encode key
  | nil | bool | uint | float | array => trivial

end Value

/-- The fields of a normal record are settled. -/
private theorem Record.IsNormal.isSettled {record : Record} (h : record.IsNormal) :
    (Value.map record.fields).IsSettled :=
  ⟨h.canonical, congrArg Value.map h.normalized⟩

namespace Message

/-! ### What is handed on -/

/-- **Records are clean.**  Whatever the buffer and its codec, no value at any depth of a record
that is handed on is raw bytes or a signed integer that is not negative, and all text is valid. -/
theorem isClean_of_decode {b : Bytes} {sets : List RecordSet} (h : (decode b).sets? = some sets) :
    ∀ set ∈ sets, ∀ record ∈ set.records, ∀ v : Value, v.Within (.map record.fields) →
      v.IsClean := by
  intro set hset record hrecord v hv
  obtain ⟨n, -, rfl⟩ | ⟨only, n, hdecode, rfl⟩ := Decoding.sets?_eq_some_iff.1 h
  · cases hset
  · rw [List.mem_singleton.1 hset] at hrecord
    exact ((isNormal_of_decode hdecode record hrecord).isSettled.part hv).isClean

set_option maxRecDepth 4000 in
/-- An event with raw bytes and malformed text, as keys too, and with an integer written as a signed
one though it is not negative. -/
theorem isClean_of_decode_raw :
    let raw : Bytes := [0x93, 0xA1, 0x61, 0x10, 0x82, 0xA1, 0xFF, 0xD0, 0x05, 0xC4, 0x01, 0x6B,
      0x93, 0xC4, 0x01, 0xFF, 0xA1, 0xFE, 0xFF]
    let fields : Fields :=
      [("k", .array [.text "\uFFFD", .text "\uFFFD", .int (-1)]), ("\uFFFD", .uint 5)]
    decode raw = .message ⟨"a", [⟨16, fields⟩]⟩ 19 ∧
      ∀ v : Value, v.Within (.map fields) → v.IsClean := by
  intro raw fields
  have hdecode : decode raw = .message ⟨"a", [⟨16, fields⟩]⟩ 19 := by with_unfolding_all rfl
  have hclean := isClean_of_decode (b := raw) (by rw [hdecode, Decoding.sets?])
  exact ⟨hdecode, hclean _ (List.mem_singleton_self _) _ (List.mem_singleton_self _)⟩

end Message

end ForwardIntake
