import ForwardIntake.Proofs.MessagePack.Writing

/-!
# Text that is sent as raw bytes

Some clients send their text as raw bytes, all of it or a part, at any depth of a value
(`Value.AsBytes`).  The value is no deeper and no longer on the wire for that, and normalizing it
undoes the difference (`AsBytes.normalize_eq`).

Normalizing works on each part of a value by itself (`part?_normalize`), and changes nothing in a
part but raw bytes (`keepsForm_normalize`).
-/

namespace ForwardIntake

namespace Value

/-! ### Values with text as raw bytes -/

mutual

/-- The second value is the first one with some of its text, at any depth, as raw bytes. -/
inductive AsBytes : Value → Value → Prop where
  | refl (v : Value) : AsBytes v v
  | text (s : String) : AsBytes (.text s) (.binary (Utf8.encode s))
  | array {items items' : List Value} (h : ItemsAsBytes items items') :
    AsBytes (.array items) (.array items')
  | map {fields fields' : List (String × Value)} (h : FieldsAsBytes fields fields') :
    AsBytes (.map fields) (.map fields')

/-- The items, some of their text as raw bytes. -/
inductive ItemsAsBytes : List Value → List Value → Prop where
  | nil : ItemsAsBytes [] []
  | cons {v w : Value} {vs ws : List Value} (hfirst : AsBytes v w) (hrest : ItemsAsBytes vs ws) :
    ItemsAsBytes (v :: vs) (w :: ws)

/-- The fields, some of the text in their values as raw bytes. -/
inductive FieldsAsBytes : List (String × Value) → List (String × Value) → Prop where
  | nil : FieldsAsBytes [] []
  | cons (key : String) {v w : Value} {vs ws : List (String × Value)} (hfirst : AsBytes v w)
    (hrest : FieldsAsBytes vs ws) : FieldsAsBytes ((key, v) :: vs) ((key, w) :: ws)

end

/-- No text at all may be sent as raw bytes. -/
theorem ItemsAsBytes.refl (items : List Value) : ItemsAsBytes items items := by
  induction items with
  | nil => exact .nil
  | cons v rest ih => exact .cons (.refl v) ih

mutual

/-- **Normalizing undoes it.** -/
theorem AsBytes.normalize_eq : {v w : Value} → AsBytes v w → w.normalize = v.normalize
  | _, _, .refl v => rfl
  | _, _, .text s => by simp
  | _, _, .array h => congrArg Value.array h.normalizeItems_eq
  | _, _, .map h => congrArg Value.map h.normalizeFields_eq

/-- Normalizing undoes it in each item. -/
theorem ItemsAsBytes.normalizeItems_eq : {vs ws : List Value} → ItemsAsBytes vs ws →
    normalizeItems ws = normalizeItems vs
  | _, _, .nil => rfl
  | _, _, .cons hfirst hrest => by simp [hfirst.normalize_eq, hrest.normalizeItems_eq]

/-- Normalizing undoes it in each field. -/
theorem FieldsAsBytes.normalizeFields_eq : {vs ws : List (String × Value)} → FieldsAsBytes vs ws →
    normalizeFields ws = normalizeFields vs
  | _, _, .nil => rfl
  | _, _, .cons key hfirst hrest => by simp [hfirst.normalize_eq, hrest.normalizeFields_eq]

end

/-! ### Their size -/

mutual

/-- Raw bytes are no deeper than text. -/
theorem AsBytes.depth_eq : {v w : Value} → AsBytes v w → w.depth = v.depth
  | _, _, .refl v => rfl
  | _, _, .text s => rfl
  | _, _, .array h => congrArg (· + 1) h.itemsDepth_eq
  | _, _, .map h => congrArg (· + 1) h.fieldsDepth_eq

/-- Items are no deeper for raw bytes. -/
theorem ItemsAsBytes.itemsDepth_eq : {vs ws : List Value} → ItemsAsBytes vs ws →
    itemsDepth ws = itemsDepth vs
  | _, _, .nil => rfl
  | _, _, .cons hfirst hrest => by simp [hfirst.depth_eq, hrest.itemsDepth_eq]

/-- Fields are no deeper for raw bytes. -/
theorem FieldsAsBytes.fieldsDepth_eq : {vs ws : List (String × Value)} → FieldsAsBytes vs ws →
    fieldsDepth ws = fieldsDepth vs
  | _, _, .nil => rfl
  | _, _, .cons _ hfirst hrest => by simp [hfirst.depth_eq, hrest.fieldsDepth_eq]

end

private theorem ItemsAsBytes.length_eq :
    {vs ws : List Value} → ItemsAsBytes vs ws → ws.length = vs.length
  | _, _, .nil => rfl
  | _, _, .cons _ hrest => congrArg (· + 1) hrest.length_eq

private theorem FieldsAsBytes.length_eq : {vs ws : List (String × Value)} → FieldsAsBytes vs ws →
    ws.length = vs.length
  | _, _, .nil => rfl
  | _, _, .cons _ _ hrest => congrArg (· + 1) hrest.length_eq

mutual

/-- Lengths fit for raw bytes if they fit for text. -/
theorem AsBytes.writable : {v w : Value} → AsBytes v w → v.Writable → w.Writable
  | _, _, .refl _, hfits => hfits
  | _, _, .text _, hfits => hfits
  | _, _, .array h, hfits => ⟨h.length_eq ▸ hfits.1, h.itemsWritable hfits.2⟩
  | _, _, .map h, hfits => ⟨h.length_eq ▸ hfits.1, h.fieldsWritable hfits.2⟩

theorem ItemsAsBytes.itemsWritable : {vs ws : List Value} → ItemsAsBytes vs ws →
    ItemsWritable vs → ItemsWritable ws
  | _, _, .nil, _ => trivial
  | _, _, .cons hfirst hrest, hfits => ⟨hfirst.writable hfits.1, hrest.itemsWritable hfits.2⟩

theorem FieldsAsBytes.fieldsWritable : {vs ws : List (String × Value)} → FieldsAsBytes vs ws →
    FieldsWritable vs → FieldsWritable ws
  | _, _, .nil, _ => trivial
  | _, _, .cons _ hfirst hrest, hfits =>
    ⟨hfits.1, hfirst.writable hfits.2.1, hrest.fieldsWritable hfits.2.2⟩

end

/-! ### Normalizing the parts of a value -/

/-- A step into a value: to an item of an array or to a field of a map. -/
inductive Place where
  | item (i : Nat)
  | field (key : String)
  deriving DecidableEq, Repr

/-- The part of a value to which a path leads. -/
def part? : List Place → Value → Option Value
  | [], v => some v
  | .item i :: path, .array items => items[i]?.bind (part? path)
  | .field key :: path, .map fields => (Fields.get? key fields).bind (part? path)
  | _, _ => none

/-- Items are normalized one by one. -/
private theorem normalizeItems_eq_map (items : List Value) :
    normalizeItems items = items.map normalize := by
  induction items with
  | nil => rfl
  | cons v rest ih => simp [ih]

/-- Normalizing leaves the keys, so a lookup finds what it found, normalized. -/
private theorem get?_normalizeFields (key : String) (fields : Fields) :
    Fields.get? key (normalizeFields fields) = (Fields.get? key fields).map normalize := by
  induction fields with
  | nil => rfl
  | cons field rest ih =>
    obtain ⟨k, v⟩ := field
    simp only [Fields.get?] at ih ⊢
    rw [normalizeFields, List.lookup_cons, List.lookup_cons, ih]
    cases key == k with
    | true => rfl
    | false => rfl

/-- **Normalizing works part by part.** -/
theorem part?_normalize (path : List Place) (v : Value) :
    v.normalize.part? path = (v.part? path).map normalize := by
  induction path generalizing v with
  | nil => cases v with
    | _ => rfl
  | cons place path ih =>
    -- the induction goes on in the part to which the first step leads, if there is one
    have hbind (found : Option Value) :
        (found.map normalize).bind (part? path) = (found.bind (part? path)).map normalize := by
      cases found with
      | none => rfl
      | some v => exact ih v
    cases place with
    | item i =>
      cases v with
      | array items =>
        simp only [normalize, part?, normalizeItems_eq_map, List.getElem?_map]
        exact hbind items[i]?
      | _ => rfl
    | field key =>
      cases v with
      | map fields =>
        simp only [normalize, part?, get?_normalizeFields]
        exact hbind (Fields.get? key fields)
      | _ => rfl

/-- The second value is the first one, or some text for raw bytes, or another array of the same
length, or another map with the same keys. -/
inductive KeepsForm : Value → Value → Prop where
  | scalar {v : Value} (hkind : v.kind ∉ [.binary, .array, .map]) : KeepsForm v v
  | binary (b : Bytes) (s : String) : KeepsForm (.binary b) (.text s)
  | array {items items' : List Value} (hlength : items'.length = items.length) :
    KeepsForm (.array items) (.array items')
  | map {fields fields' : Fields} (hkeys : Fields.keys fields' = Fields.keys fields) :
    KeepsForm (.map fields) (.map fields')

/-- **Normalizing changes raw bytes only**: the kind, the length and the keys of every other
value stay. -/
theorem keepsForm_normalize (v : Value) : KeepsForm v v.normalize := by
  cases v with
  | binary b => exact .binary b _
  | array items => exact .array (by rw [normalizeItems_eq_map, List.length_map])
  | map fields => exact .map (keys_normalizeFields fields)
  | _ => exact .scalar (by simp)

end Value

end ForwardIntake
