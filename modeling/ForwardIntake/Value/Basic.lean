import ForwardIntake.Numeric.Binary64
import ForwardIntake.Text.Utf8

/-!
# Values

The values that a client can put on the wire, in either codec.  Clients differ in how they send
text: older ones send every string as raw bytes.  `normalize` settles this by turning raw bytes into
text at every depth, so that a consumer of records sees text only (`Textual`).

The fields of a map are kept in ascending order of their keys, each key once (`Ordered`);
`Fields.insert` is the only way in which the library builds one.
-/

namespace ForwardIntake

/-- A dynamically typed value. -/
inductive Value where
  | nil
  | bool (b : Bool)
  /-- A negative integer; every integer read from the wire that is not negative is a `uint`. -/
  | int (n : Int64)
  | uint (n : UInt64)
  | float (x : Binary64)
  | text (s : String)
  /-- Raw bytes. -/
  | binary (b : Bytes)
  | array (items : List Value)
  /-- Fields in ascending order of their keys. -/
  | map (fields : List (String × Value))
  deriving Repr, Inhabited

/-- The fields of a map, in ascending order of their keys. -/
abbrev Fields := List (String × Value)

namespace Fields

/-- Sets a field, in the place of an earlier one with the same key. -/
def insert (key : String) (value : Value) : Fields → Fields
  | [] => [(key, value)]
  | (k, v) :: rest =>
    if key < k then (key, value) :: (k, v) :: rest
    else if key = k then (key, value) :: rest
    else (k, v) :: insert key value rest

/-- The fields of a list of pairs; of two pairs with one key the later one counts. -/
def ofList (pairs : List (String × Value)) : Fields :=
  pairs.foldl (fun fields pair => insert pair.1 pair.2 fields) []

/-- The value of a field. -/
def get? (key : String) (fields : Fields) : Option Value :=
  List.lookup key fields

/-- The keys, in order. -/
def keys (fields : Fields) : List String :=
  fields.map Prod.fst

/-- Whether the keys are in strictly ascending order. -/
def Ascending (fields : Fields) : Prop :=
  (keys fields).Pairwise (· < ·)

/-- Inserting a field adds no key but its own. -/
private theorem mem_keys_insert {key k : String} {value : Value} {fields : Fields} :
    k ∈ keys (insert key value fields) → k = key ∨ k ∈ keys fields := by
  induction fields with
  | nil => simp [insert, keys]
  | cons pair rest ih =>
    obtain ⟨k', v'⟩ := pair
    rw [insert]
    split
    · simp [keys]
    · split
      · rename_i h
        subst h
        simp [keys]
      · simp only [keys, List.map_cons, List.mem_cons] at ih ⊢
        intro h
        rcases h with h | h
        · exact .inr (.inl h)
        · exact (ih h).elim .inl (fun h => .inr (.inr h))

/-- Setting a field keeps the order of the keys. -/
theorem ascending_insert {fields : Fields} (h : Ascending fields) (key : String) (value : Value) :
    Ascending (insert key value fields) := by
  induction fields with
  | nil => simp [insert, Ascending, keys]
  | cons pair rest ih =>
    obtain ⟨k, v⟩ := pair
    simp only [Ascending, keys, List.map_cons, List.pairwise_cons] at h
    rw [insert]
    split
    · rename_i lt
      simp only [Ascending, keys, List.map_cons, List.pairwise_cons, List.mem_cons]
      refine ⟨?_, h⟩
      rintro a (rfl | ha)
      · exact lt
      · exact String.lt_trans lt (h.1 a ha)
    · split
      · rename_i eq
        subst eq
        exact List.pairwise_cons.2 h
      · rename_i nlt ne
        refine List.pairwise_cons.2 ⟨fun a ha => ?_, ih h.2⟩
        rcases mem_keys_insert ha with rfl | ha
        · exact Std.lt_of_le_of_ne (String.not_lt.1 nlt) (Ne.symm ne)
        · exact h.1 a ha

end Fields

namespace Value

/-! ### Kinds -/

/-- What sort of value a value is. -/
inductive Kind where
  | nil
  | boolean
  | integer
  | unsigned
  | float
  | text
  | binary
  | array
  | map
  deriving DecidableEq, Repr

/-- The name of a kind in messages. -/
def Kind.name : Kind → String
  | .nil => "nil"
  | .boolean => "boolean"
  | .integer => "integer"
  | .unsigned => "unsigned integer"
  | .float => "float"
  | .text => "string"
  | .binary => "binary"
  | .array => "array"
  | .map => "map"

/-- The kind of a value. -/
def kind : Value → Kind
  | .nil => .nil
  | .bool _ => .boolean
  | .int _ => .integer
  | .uint _ => .unsigned
  | .float _ => .float
  | .text _ => .text
  | .binary _ => .binary
  | .array _ => .array
  | .map _ => .map

section Kinds

variable (b : Bool) (n : Int64) (u : UInt64) (x : Binary64) (s : String) (bytes : Bytes)
  (items : List Value) (fields : Fields)

@[simp] theorem kind_nil : nil.kind = .nil :=
  rfl

@[simp] theorem kind_bool : (bool b).kind = .boolean :=
  rfl

@[simp] theorem kind_int : (int n).kind = .integer :=
  rfl

@[simp] theorem kind_uint : (uint u).kind = .unsigned :=
  rfl

@[simp] theorem kind_float : (float x).kind = .float :=
  rfl

@[simp] theorem kind_text : (text s).kind = .text :=
  rfl

@[simp] theorem kind_binary : (binary bytes).kind = .binary :=
  rfl

@[simp] theorem kind_array : (array items).kind = .array :=
  rfl

@[simp] theorem kind_map : (map fields).kind = .map :=
  rfl

end Kinds

/-! ### Parts -/

/-- Whether a value is nil. -/
def isNil : Value → Bool
  | .nil => true
  | _ => false

/-- The text of a text. -/
def text? : Value → Option String
  | .text s => some s
  | _ => none

/-- The number of a non-negative integer. -/
def uint? : Value → Option UInt64
  | .uint n => some n
  | _ => none

/-- The fields of a map. -/
def fields? : Value → Option Fields
  | .map fields => some fields
  | _ => none

/-- The value of a signed integer: a `uint` unless it is negative. -/
def ofInt64 (n : Int64) : Value :=
  if 0 ≤ n then .uint n.toUInt64 else .int n

/-! ### Normalization -/

mutual

/-- Turns raw bytes into text at every depth, with U+FFFD for what is not well-formed UTF-8. -/
@[simp] def normalize : Value → Value
  | .binary b => .text (Utf8.decodeLossy b)
  | .array items => .array (normalizeItems items)
  | .map fields => .map (normalizeFields fields)
  | .nil => .nil
  | .bool b => .bool b
  | .int n => .int n
  | .uint n => .uint n
  | .float x => .float x
  | .text s => .text s

/-- Normalizes each item. -/
@[simp] def normalizeItems : List Value → List Value
  | [] => []
  | v :: rest => normalize v :: normalizeItems rest

/-- Normalizes the value of each field. -/
@[simp] def normalizeFields : List (String × Value) → List (String × Value)
  | [] => []
  | (k, v) :: rest => (k, normalize v) :: normalizeFields rest

end

mutual

/-- No raw bytes at any depth. -/
@[simp] def Textual : Value → Prop
  | .binary _ => False
  | .array items => ItemsTextual items
  | .map fields => FieldsTextual fields
  | _ => True

/-- No raw bytes in any item. -/
@[simp] def ItemsTextual : List Value → Prop
  | [] => True
  | v :: rest => Textual v ∧ ItemsTextual rest

/-- No raw bytes in the value of any field. -/
@[simp] def FieldsTextual : List (String × Value) → Prop
  | [] => True
  | (_, v) :: rest => Textual v ∧ FieldsTextual rest

end

mutual

/-- Normalizing leaves no raw bytes. -/
theorem textual_normalize : (v : Value) → Textual (normalize v)
  | .nil => trivial
  | .bool _ => trivial
  | .int _ => trivial
  | .uint _ => trivial
  | .float _ => trivial
  | .text _ => trivial
  | .binary _ => trivial
  | .array items => textual_normalizeItems items
  | .map fields => textual_normalizeFields fields

theorem textual_normalizeItems : (items : List Value) → ItemsTextual (normalizeItems items)
  | [] => trivial
  | v :: rest => ⟨textual_normalize v, textual_normalizeItems rest⟩

theorem textual_normalizeFields :
    (fields : List (String × Value)) → FieldsTextual (normalizeFields fields)
  | [] => trivial
  | (_, v) :: rest => ⟨textual_normalize v, textual_normalizeFields rest⟩

end

mutual

/-- A value without raw bytes is its own normal form. -/
theorem normalize_of_textual : (v : Value) → Textual v → normalize v = v
  | .nil, _ => rfl
  | .bool _, _ => rfl
  | .int _, _ => rfl
  | .uint _, _ => rfl
  | .float _, _ => rfl
  | .text _, _ => rfl
  | .array items, h => congrArg Value.array (normalizeItems_of_textual items h)
  | .map fields, h => congrArg Value.map (normalizeFields_of_textual fields h)

/-- Items without raw bytes are normal. -/
theorem normalizeItems_of_textual :
    (items : List Value) → ItemsTextual items → normalizeItems items = items
  | [], _ => rfl
  | v :: rest, h => by
    rw [normalizeItems, normalize_of_textual v h.1, normalizeItems_of_textual rest h.2]

/-- Fields without raw bytes are normal. -/
theorem normalizeFields_of_textual :
    (fields : List (String × Value)) → FieldsTextual fields → normalizeFields fields = fields
  | [], _ => rfl
  | (k, v) :: rest, h => by
    rw [normalizeFields, normalize_of_textual v h.1, normalizeFields_of_textual rest h.2]

end

/-- Normalizing twice is normalizing once. -/
theorem normalize_normalize (v : Value) : normalize (normalize v) = normalize v :=
  normalize_of_textual _ (textual_normalize v)

/-- Normalizing keeps the keys of a map. -/
theorem keys_normalizeFields (fields : Fields) :
    Fields.keys (normalizeFields fields) = Fields.keys fields := by
  induction fields with
  | nil => rfl
  | cons pair rest ih =>
    simp only [Fields.keys] at ih
    simp [normalizeFields, Fields.keys, ih]

/-! ### Order of keys -/

mutual

/-- Every map, at every depth, has its keys in ascending order. -/
@[simp] def Ordered : Value → Prop
  | .array items => ItemsOrdered items
  | .map fields => Fields.Ascending fields ∧ FieldsOrdered fields
  | _ => True

/-- Every map in every item has its keys in ascending order. -/
@[simp] def ItemsOrdered : List Value → Prop
  | [] => True
  | v :: rest => Ordered v ∧ ItemsOrdered rest

/-- Every map in the value of every field has its keys in ascending order. -/
@[simp] def FieldsOrdered : List (String × Value) → Prop
  | [] => True
  | (_, v) :: rest => Ordered v ∧ FieldsOrdered rest

end

/-! ### Equality of the values stood for -/

mutual

/-- Equality of values, floats compared as numbers; different kinds are never equal. -/
def numEq : Value → Value → Bool
  | .nil, .nil => true
  | .bool a, .bool b => a == b
  | .int a, .int b => a == b
  | .uint a, .uint b => a == b
  | .float a, .float b => a.numEq b
  | .text a, .text b => a == b
  | .binary a, .binary b => a == b
  | .array a, .array b => itemsNumEq a b
  | .map a, .map b => fieldsNumEq a b
  | _, _ => false

/-- Equality of two lists of items, item by item. -/
def itemsNumEq : List Value → List Value → Bool
  | [], [] => true
  | a :: as, b :: bs => numEq a b && itemsNumEq as bs
  | _, _ => false

/-- Equality of two lists of fields, field by field. -/
def fieldsNumEq : List (String × Value) → List (String × Value) → Bool
  | [], [] => true
  | (j, a) :: as, (k, b) :: bs => j == k && numEq a b && fieldsNumEq as bs
  | _, _ => false

end

/-! ### Nesting -/

mutual

/-- How many containers lie inside one another. -/
@[simp] def depth : Value → Nat
  | .array items => itemsDepth items + 1
  | .map fields => fieldsDepth fields + 1
  | _ => 0

/-- The greatest depth of an item. -/
@[simp] def itemsDepth : List Value → Nat
  | [] => 0
  | v :: rest => max (depth v) (itemsDepth rest)

/-- The greatest depth of the value of a field. -/
@[simp] def fieldsDepth : List (String × Value) → Nat
  | [] => 0
  | (_, v) :: rest => max (depth v) (fieldsDepth rest)

end

end Value

end ForwardIntake
