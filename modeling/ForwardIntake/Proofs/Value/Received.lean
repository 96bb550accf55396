import ForwardIntake.Value.Basic
import Mathlib

/-!
# Values on the other side of a wire

A value is not always read as it was written: an integer that is not negative comes back unsigned,
and the fields of a map come back in the order of their keys (`Value.received`).  If its maps are in
order only its integers change (`received_of_ordered`), and if its signed integers are negative as
well it comes back as it is (`canonical_of_ordered`).  Nothing else changes, so it does not matter
whether a value is normalized before or after (`received_normalize`).
-/

namespace ForwardIntake

/-! ### Fields -/

namespace Fields

variable {fields : Fields} {key : String} {value : Value}

instance (fields : Fields) : Decidable (Ascending fields) :=
  inferInstanceAs (Decidable ((keys fields).Pairwise (· < ·)))

/-- The fields with a function applied to their values. -/
def mapValues (f : Value → Value) (fields : Fields) : Fields :=
  fields.map fun field => (field.1, f field.2)

/-- Setting a field and applying a function to the values can be exchanged. -/
private theorem insert_mapValues (f : Value → Value) (key : String) (value : Value)
    (fields : Fields) :
    insert key (f value) (mapValues f fields) = mapValues f (insert key value fields) := by
  induction fields with
  | nil => rfl
  | cons field rest ih =>
    obtain ⟨k, v⟩ := field
    simp only [mapValues, List.map_cons] at ih ⊢
    rw [insert, insert]
    split
    · rfl
    · split
      · rfl
      · rw [ih, List.map_cons]

theorem ofList_mapValues (f : Value → Value) (pairs : List (String × Value)) :
    ofList (mapValues f pairs) = mapValues f (ofList pairs) := by
  have hfold (acc : Fields) :
      (mapValues f pairs).foldl (fun fields pair => insert pair.1 pair.2 fields) (mapValues f acc) =
        mapValues f (pairs.foldl (fun fields pair => insert pair.1 pair.2 fields) acc) := by
    induction pairs generalizing acc with
    | nil => rfl
    | cons pair pairs ih =>
      rw [List.foldl_cons, ← ih, ← insert_mapValues]
      rfl
  exact hfold []

/-- A field with a key behind all others goes to the end. -/
private theorem insert_of_lt (h : ∀ k ∈ keys fields, k < key) :
    insert key value fields = fields ++ [(key, value)] := by
  induction fields with
  | nil => rfl
  | cons field rest ih =>
    obtain ⟨k, v⟩ := field
    simp only [keys, List.map_cons, List.forall_mem_cons] at h
    have hlt := h.1
    rw [insert, if_neg (String.lt_asymm hlt), if_neg (String.ne_of_lt hlt).symm, ih h.2,
      List.cons_append]

/-- Fields that are in order are set one behind the other. -/
theorem ofList_of_ascending (h : Ascending fields) : ofList fields = fields := by
  have hfold (acc rest : Fields) (hacc : Ascending (acc ++ rest)) :
      rest.foldl (fun fields pair => insert pair.1 pair.2 fields) acc = acc ++ rest := by
    induction rest generalizing acc with
    | nil => exact (List.append_nil acc).symm
    | cons field rest ih =>
      have hlt : ∀ k ∈ keys acc, k < field.1 := by
        simp only [Ascending, keys, List.map_append, List.map_cons, List.pairwise_append] at hacc
        exact fun k hk => hacc.2.2 k hk field.1 List.mem_cons_self
      rw [List.foldl_cons, insert_of_lt hlt, ih, List.append_assoc, List.singleton_append]
      rwa [List.append_assoc]
  exact hfold [] fields h

/-- Fields that are set one after the other are in order. -/
private theorem ascending_ofList (pairs : List (String × Value)) : Ascending (ofList pairs) := by
  have hfold (acc : Fields) (hacc : Ascending acc) :
      Ascending (pairs.foldl (fun fields pair => insert pair.1 pair.2 fields) acc) := by
    induction pairs generalizing acc with
    | nil => exact hacc
    | cons pair pairs ih => exact ih _ (ascending_insert hacc pair.1 pair.2)
  exact hfold [] List.Pairwise.nil

/-- The fields stay as they are exactly if every value does. -/
theorem mapValues_eq_self {f : Value → Value} :
    mapValues f fields = fields ↔ ∀ field ∈ fields, f field.2 = field.2 := by
  have hid : mapValues f fields = fields ↔ mapValues f fields = fields.map id := by
    rw [List.map_id]
  rw [hid, mapValues, List.map_inj_left]
  exact forall₂_congr fun _ _ => Prod.ext_iff.trans (and_iff_right rfl)

end Fields

namespace Value

mutual

/-- The value that is read where the value was written. -/
@[simp] def received : Value → Value
  | .int n => ofInt64 n
  | .array items => .array (receivedItems items)
  | .map fields => .map (Fields.ofList (receivedFields fields))
  | .nil => .nil
  | .bool b => .bool b
  | .uint n => .uint n
  | .float x => .float x
  | .text s => .text s
  | .binary b => .binary b

/-- The items that are read. -/
@[simp] def receivedItems : List Value → List Value
  | [] => []
  | v :: rest => received v :: receivedItems rest

/-- The pairs of a key and a value that are read, in their order on the wire. -/
@[simp] def receivedFields : List (String × Value) → List (String × Value)
  | [] => []
  | (k, v) :: rest => (k, received v) :: receivedFields rest

end

/-- Each item is read for itself. -/
theorem receivedItems_eq_map (items : List Value) :
    receivedItems items = items.map received := by
  induction items with
  | nil => rfl
  | cons v rest ih => simp [ih]

/-- Each value of a field is read for itself. -/
theorem receivedFields_eq_mapValues (fields : Fields) :
    receivedFields fields = Fields.mapValues received fields := by
  induction fields with
  | nil => rfl
  | cons field rest ih =>
    obtain ⟨k, v⟩ := field
    simp [ih, Fields.mapValues]

/-- Each value of a field is normalized for itself. -/
theorem normalizeFields_eq_mapValues (fields : Fields) :
    normalizeFields fields = Fields.mapValues normalize fields := by
  induction fields with
  | nil => rfl
  | cons field rest ih =>
    obtain ⟨k, v⟩ := field
    simp [ih, Fields.mapValues]

/-! ### Values that come back as they are -/

/-- The value comes back as it is. -/
def Canonical (v : Value) : Prop :=
  v.received = v

/-- An array comes back as it is exactly if its items do. -/
theorem canonical_array {items : List Value} :
    (Value.array items).Canonical ↔ ∀ v ∈ items, v.Canonical := by
  have hid : items.map received = items ↔ items.map received = items.map id := by
    rw [List.map_id]
  rw [Canonical, received, Value.array.injEq, receivedItems_eq_map, hid, List.map_inj_left]
  exact Iff.rfl

end Value

namespace Fields

/-- The keys are in order and the values come back as they are. -/
structure Canonical (fields : Fields) : Prop where
  ascending : Ascending fields
  values : ∀ field ∈ fields, field.2.Canonical

theorem canonical_nil : Canonical [] :=
  ⟨List.Pairwise.nil, List.forall_mem_nil _⟩

/-- A field that comes back as it is can be set among such fields. -/
theorem Canonical.insert {fields : Fields} {value : Value} (h : fields.Canonical) (key : String)
    (hvalue : value.Canonical) : (fields.insert key value).Canonical := by
  refine ⟨ascending_insert h.ascending key value, ?_⟩
  have hvalues := h.values
  clear h
  induction fields with
  | nil => exact List.forall_mem_singleton.2 hvalue
  | cons field rest ih =>
    obtain ⟨k, v⟩ := field
    obtain ⟨hfirst, hrest⟩ := List.forall_mem_cons.1 hvalues
    rw [Fields.insert]
    split
    · exact List.forall_mem_cons.2 ⟨hvalue, hvalues⟩
    · split
      · exact List.forall_mem_cons.2 ⟨hvalue, hrest⟩
      · exact List.forall_mem_cons.2 ⟨hfirst, ih hrest⟩

end Fields

namespace Value

theorem canonical_map {fields : Fields} (h : fields.Canonical) : (Value.map fields).Canonical := by
  rw [Canonical, received, receivedFields_eq_mapValues, Fields.mapValues_eq_self.2 h.values,
    Fields.ofList_of_ascending h.ascending]

/-- The fields of a map that comes back as it is do so too. -/
theorem canonical_of_map {fields : Fields} (h : (Value.map fields).Canonical) :
    fields.Canonical := by
  -- fields that a reader has set are in order, so it changes no place, and hence no value
  have hlist : Fields.ofList (receivedFields fields) = fields := Value.map.inj h
  have hascending : fields.Ascending := hlist ▸ Fields.ascending_ofList _
  rw [receivedFields_eq_mapValues, Fields.ofList_mapValues,
    Fields.ofList_of_ascending hascending] at hlist
  exact ⟨hascending, Fields.mapValues_eq_self.1 hlist⟩

theorem canonical_int {n : Int64} (h : n < 0) : (Value.int n).Canonical := by
  rw [Canonical, received, ofInt64, if_neg (Int64.not_le.2 h)]

mutual

/-- Every signed integer, at every depth, is negative. -/
@[simp] def IntsNegative : Value → Prop
  | .int n => n < 0
  | .array items => ItemsIntsNegative items
  | .map fields => FieldsIntsNegative fields
  | _ => True

/-- Every signed integer in every item is negative. -/
@[simp] def ItemsIntsNegative : List Value → Prop
  | [] => True
  | v :: rest => IntsNegative v ∧ ItemsIntsNegative rest

/-- Every signed integer in the value of every field is negative. -/
@[simp] def FieldsIntsNegative : List (String × Value) → Prop
  | [] => True
  | (_, v) :: rest => IntsNegative v ∧ FieldsIntsNegative rest

end

mutual

/-- **What comes back as it is.** -/
theorem canonical_of_ordered : (v : Value) → v.Ordered → v.IntsNegative → v.Canonical
  | .nil, _, _ => rfl
  | .bool _, _, _ => rfl
  | .int _, _, hneg => canonical_int hneg
  | .uint _, _, _ => rfl
  | .float _, _, _ => rfl
  | .text _, _, _ => rfl
  | .binary _, _, _ => rfl
  | .array items, hordered, hneg =>
    canonical_array.2 (canonical_of_itemsOrdered items hordered hneg)
  | .map fields, hordered, hneg =>
    canonical_map ⟨hordered.1, canonical_of_fieldsOrdered fields hordered.2 hneg⟩

/-- Items come back as they are if their maps are in order and their signed integers negative. -/
theorem canonical_of_itemsOrdered : (items : List Value) → ItemsOrdered items →
    ItemsIntsNegative items → ∀ v ∈ items, v.Canonical
  | [], _, _ => List.forall_mem_nil _
  | v :: rest, hordered, hneg =>
    List.forall_mem_cons.2 ⟨canonical_of_ordered v hordered.1 hneg.1,
      canonical_of_itemsOrdered rest hordered.2 hneg.2⟩

theorem canonical_of_fieldsOrdered : (fields : List (String × Value)) → FieldsOrdered fields →
    FieldsIntsNegative fields → ∀ field ∈ fields, field.2.Canonical
  | [], _, _ => List.forall_mem_nil _
  | (_, v) :: rest, hordered, hneg =>
    List.forall_mem_cons.2 ⟨canonical_of_ordered v hordered.1 hneg.1,
      canonical_of_fieldsOrdered rest hordered.2 hneg.2⟩

end

/-! ### Signs

In a value whose maps are in order nothing changes on the wire but the kind of some integers. -/

/-- A signed integer as a value, by its sign. -/
theorem ofInt64_eq (n : Int64) :
    ofInt64 n = if 0 ≤ n.toInt then .uint (UInt64.ofNat n.toInt.toNat) else .int n := by
  rw [ofInt64]
  by_cases hpos : 0 ≤ n
  · have hnat : n.toInt.toNat = n.toUInt64.toNat :=
      BitVec.toNat_toInt_of_sle (Int64.le_iff_toBitVec_sle.1 hpos)
    have hint : 0 ≤ n.toInt := Int64.le_iff_toInt_le.1 hpos
    rw [if_pos hpos, if_pos hint, hnat, UInt64.ofNat_toNat]
  · have hneg : ¬0 ≤ n.toInt := fun h => hpos (Int64.le_iff_toInt_le.2 h)
    rw [if_neg hpos, if_neg hneg]

mutual

/-- The value with every signed integer that is not negative as an unsigned one, at every depth. -/
@[simp] def unsigned : Value → Value
  | .int n => ofInt64 n
  | .array items => .array (unsignedItems items)
  | .map fields => .map (unsignedFields fields)
  | .nil => .nil
  | .bool b => .bool b
  | .uint n => .uint n
  | .float x => .float x
  | .text s => .text s
  | .binary b => .binary b

/-- The items with their integers that are not negative as unsigned ones. -/
@[simp] def unsignedItems : List Value → List Value
  | [] => []
  | v :: rest => unsigned v :: unsignedItems rest

/-- The fields with their integers that are not negative as unsigned ones. -/
@[simp] def unsignedFields : List (String × Value) → List (String × Value)
  | [] => []
  | (k, v) :: rest => (k, unsigned v) :: unsignedFields rest

end

mutual

/-- **What an ordered value comes back as.** -/
theorem received_of_ordered : (v : Value) → v.Ordered → v.received = v.unsigned
  | .nil, _ => rfl
  | .bool _, _ => rfl
  | .int _, _ => rfl
  | .uint _, _ => rfl
  | .float _, _ => rfl
  | .text _, _ => rfl
  | .binary _, _ => rfl
  | .array items, h => congrArg Value.array (receivedItems_of_ordered items h)
  | .map fields, h => by
    rw [received, receivedFields_eq_mapValues, Fields.ofList_mapValues,
      Fields.ofList_of_ascending h.1, ← receivedFields_eq_mapValues,
      receivedFields_of_ordered fields h.2, unsigned]

theorem receivedItems_of_ordered : (items : List Value) → ItemsOrdered items →
    receivedItems items = unsignedItems items
  | [], _ => rfl
  | v :: rest, h => by
    simp [received_of_ordered v h.1, receivedItems_of_ordered rest h.2]

theorem receivedFields_of_ordered : (fields : List (String × Value)) → FieldsOrdered fields →
    receivedFields fields = unsignedFields fields
  | [], _ => rfl
  | (k, v) :: rest, h => by
    simp [received_of_ordered v h.1, receivedFields_of_ordered rest h.2]

end

/-! ### Normalization -/

mutual

/-- Normalizing and sending a value can be exchanged. -/
theorem received_normalize : (v : Value) → v.normalize.received = v.received.normalize
  | .nil => rfl
  | .bool _ => rfl
  | .int n => by
    rw [normalize, received, ofInt64]
    split <;> rfl
  | .uint _ => rfl
  | .float _ => rfl
  | .text _ => rfl
  | .binary _ => rfl
  | .array items => congrArg Value.array (receivedItems_normalizeItems items)
  | .map fields => by
    rw [normalize, received, receivedFields_normalizeFields, received, normalize,
      normalizeFields_eq_mapValues, Fields.ofList_mapValues, normalizeFields_eq_mapValues]

theorem receivedItems_normalizeItems : (items : List Value) →
    receivedItems (normalizeItems items) = normalizeItems (receivedItems items)
  | [] => rfl
  | v :: rest => by
    simp [received_normalize v, receivedItems_normalizeItems rest]

theorem receivedFields_normalizeFields : (fields : List (String × Value)) →
    receivedFields (normalizeFields fields) = normalizeFields (receivedFields fields)
  | [] => rfl
  | (k, v) :: rest => by
    simp [received_normalize v, receivedFields_normalizeFields rest]

end

/-- What comes back as it is does so when it is normalized. -/
theorem Canonical.normalize {v : Value} (h : v.Canonical) : v.normalize.Canonical := by
  rw [Canonical, received_normalize, h]

/-- Normalizing keeps the order of the keys of one map. -/
private theorem ascending_normalizeFields {fields : Fields} (h : fields.Ascending) :
    Fields.Ascending (normalizeFields fields) := by
  rwa [Fields.Ascending, keys_normalizeFields]

mutual

/-- Normalizing keeps the order of keys. -/
theorem ordered_normalize : (v : Value) → v.Ordered → v.normalize.Ordered
  | .nil, _ => trivial
  | .bool _, _ => trivial
  | .int _, _ => trivial
  | .uint _, _ => trivial
  | .float _, _ => trivial
  | .text _, _ => trivial
  | .binary _, _ => trivial
  | .array items, h => ordered_normalizeItems items h
  | .map fields, h => ⟨ascending_normalizeFields h.1, ordered_normalizeFields fields h.2⟩

theorem ordered_normalizeItems : (items : List Value) → ItemsOrdered items →
    ItemsOrdered (normalizeItems items)
  | [], _ => trivial
  | v :: rest, h => ⟨ordered_normalize v h.1, ordered_normalizeItems rest h.2⟩

theorem ordered_normalizeFields : (fields : List (String × Value)) → FieldsOrdered fields →
    FieldsOrdered (normalizeFields fields)
  | [], _ => trivial
  | (_, v) :: rest, h => ⟨ordered_normalize v h.1, ordered_normalizeFields rest h.2⟩

end

end Value

end ForwardIntake
