import ForwardIntake.Proofs.Json.Writing

/-!
# Written JSON stays on one line

In written JSON there is no control character (`oneLine_write`): strings have them escaped, bytes
beyond ASCII are none, and all else is visible ASCII, the texts of floats too
(`FloatLayout.isVisible_writeFinite`).
-/

namespace ForwardIntake

/-! ### Texts of floats -/

/-- All characters are visible ones of ASCII. -/
def IsVisible (s : String) : Prop :=
  ∀ c ∈ s.toList, 0x20 < c.toNat ∧ c.toNat < 0x7F

/-- A text is visible if its parts are. -/
theorem IsVisible.append {s t : String} (hs : IsVisible s) (ht : IsVisible t) :
    IsVisible (s ++ t) := by
  rw [IsVisible, String.toList_append]
  exact List.forall_mem_append.2 ⟨hs, ht⟩

/-- Digits are visible. -/
private theorem isVisible_ofList {cs : List Char} (h : ∀ c ∈ cs, c.isDigit = true) :
    IsVisible (String.ofList cs) := by
  rw [IsVisible, String.toList_ofList]
  intro c hc
  have hrange : 0x30 ≤ c.toNat ∧ c.toNat ≤ 0x39 := Char.isDigit_iff_toNat.1 (h c hc)
  omega

/-- A single digit is visible. -/
private theorem isVisible_singleton {c : Char} (h : c.isDigit = true) :
    IsVisible (String.singleton c) := by
  rw [String.singleton_eq_ofList]
  exact isVisible_ofList (List.forall_mem_singleton.2 h)

namespace FloatLayout

/-- The digits of a float are visible where they stand around a point. -/
private theorem isVisible_positionalDigits (layout : FloatLayout) (d : Decimal) :
    IsVisible (layout.positionalDigits d) := by
  have hdigits : ∀ c ∈ d.digits, c.isDigit = true := fun _ => Json.isDigit_of_mem_toDigits
  have hzeros (n : Nat) : ∀ c ∈ List.replicate n '0', c.isDigit = true := by
    intro c hc
    rw [List.eq_of_mem_replicate hc]
    rfl
  have hpoint : IsVisible "." := by simp [IsVisible]
  simp only [positionalDigits]
  split
  · refine (isVisible_ofList (List.forall_mem_append.2 ⟨hdigits, hzeros _⟩)).append ?_
    split
    · simp [IsVisible]
    · simp [IsVisible]
  · split
    · refine (IsVisible.append ?_ hpoint).append ?_
      · exact isVisible_ofList fun c hc => hdigits c (List.mem_of_mem_take hc)
      · exact isVisible_ofList fun c hc => hdigits c (List.mem_of_mem_drop hc)
    · have hzero : IsVisible "0." := by simp [IsVisible]
      exact hzero.append (isVisible_ofList (List.forall_mem_append.2 ⟨hzeros _, hdigits⟩))

/-- The digits of a float are visible where an exponent follows them. -/
private theorem isVisible_scientificDigits (d : Decimal) : IsVisible (scientificDigits d) := by
  have hdigits : ∀ c ∈ d.digits, c.isDigit = true := fun _ => Json.isDigit_of_mem_toDigits
  have hexponent (n : Nat) : IsVisible (toString n) := by
    rw [Nat.toString_eq_repr, Nat.repr_eq_ofList_toDigits]
    exact isVisible_ofList fun _ => Json.isDigit_of_mem_toDigits
  simp only [scientificDigits]
  refine ((IsVisible.append ?_ (by simp [IsVisible])).append ?_).append (hexponent _)
  · split
    · simp [IsVisible]
    · rename_i first hd
      rw [hd] at hdigits
      exact isVisible_singleton (hdigits first List.mem_cons_self)
    · rename_i first others _ hd
      rw [hd] at hdigits
      obtain ⟨hfirst, hothers⟩ := List.forall_mem_cons.1 hdigits
      exact ((isVisible_singleton hfirst).append (by simp [IsVisible])).append
        (isVisible_ofList hothers)
  · split
    · simp [IsVisible]
    · simp [IsVisible]

/-- The text of a finite float is visible ASCII. -/
private theorem isVisible_writeFinite (layout : FloatLayout) (x : Binary64) :
    IsVisible (layout.writeFinite x) := by
  have hsign (magnitude : String) (h : IsVisible magnitude) :
      IsVisible (if x.negative then "-" ++ magnitude else magnitude) := by
    split
    · exact IsVisible.append (by simp [IsVisible]) h
    · exact h
  have hpositional := layout.isVisible_positionalDigits (x.shortest layout.tie)
  -- without bounds all digits are written out, with bounds it depends on the exponent
  cases hbounds : layout.positional with
  | none =>
    simp only [writeFinite, hbounds]
    exact hsign _ hpositional
  | some bounds =>
    obtain ⟨least, greatest⟩ := bounds
    simp only [writeFinite, hbounds]
    refine hsign _ ?_
    split
    · exact hpositional
    · exact isVisible_scientificDigits _

end FloatLayout

namespace Json

open Value

/-! ### Bytes on one line -/

/-- There is no control character in the bytes, so no line ends in them. -/
def OneLine (b : Bytes) : Prop :=
  ∀ c ∈ b, 0x20 ≤ c

@[simp] theorem oneLine_nil : OneLine [] :=
  List.forall_mem_nil _

@[simp] theorem oneLine_cons {c : UInt8} {b : Bytes} : OneLine (c :: b) ↔ 0x20 ≤ c ∧ OneLine b :=
  List.forall_mem_cons

@[simp] theorem oneLine_append {a b : Bytes} : OneLine (a ++ b) ↔ OneLine a ∧ OneLine b :=
  List.forall_mem_append

/-- Bytes on one line do not end it. -/
theorem OneLine.lineFeed_not_mem {b : Bytes} (h : OneLine b) : 0x0A ∉ b :=
  fun hmem => absurd (h 0x0A hmem) (by decide)

/-! ### Numbers -/

/-- Visible text has no control character. -/
private theorem oneLine_ascii {s : String} (h : IsVisible s) : OneLine (ascii s) := by
  refine List.forall_mem_map.2 fun c hc => ?_
  obtain ⟨hlow, hhigh⟩ := h c hc
  have hbyte : c.toNat < 0x100 := Nat.lt_trans hhigh (by decide)
  rw [UInt8.le_iff_toNat_le, UInt8.toNat_ofNat_of_lt' hbyte]
  exact Nat.le_of_lt hlow

/-- Digits are no control characters. -/
@[simp] private theorem oneLine_writeNat (n : Nat) : OneLine (writeNat n) := by
  intro c hc
  have hdigit := isDigit_of_mem_writeNat c hc
  simp only [isDigit, Bool.and_eq_true, decide_eq_true_eq] at hdigit
  exact UInt8.le_trans (by decide) hdigit.1

/-- Neither are digits behind a minus sign. -/
@[simp] private theorem oneLine_writeInt (n : Int) : OneLine (writeInt n) := by
  rw [writeInt]
  split
  · simp
  · simp

/-- A float is written visibly, and one that is not finite as a literal. -/
private theorem oneLine_writeFloat (x : Binary64) : OneLine (writeFloat x) := by
  rw [writeFloat]
  split
  · exact oneLine_ascii (FloatLayout.isVisible_writeFinite _ x)
  · exact oneLine_ascii (by simp [IsVisible])

/-! ### Strings -/

/-- A hexadecimal digit is no control character. -/
private theorem le_hexDigit : ∀ d, d < 16 → 0x20 ≤ hexDigit d := by
  decide

/-- A control character is written as an escape, which has none. -/
private theorem oneLine_writeChar (c : Char) : OneLine (writeChar c) := by
  have hletter (letter : UInt8) (h : 0x20 ≤ letter) : OneLine [0x5C, letter] :=
    by simp [h]
  simp only [writeChar]
  -- the escapes of one letter, then those by number, then the characters that stand as they are
  iterate 7
    split
    · exact hletter _ (by decide)
  split
  · rename_i hcontrol
    have hlow := le_hexDigit (c.toNat % 16) (by omega)
    have hhigh := le_hexDigit (c.toNat / 16) (by omega)
    simp [hlow, hhigh]
  · rename_i hcontrol
    intro byte hbyte
    have hvalue := toNat_of_mem_encodeChar hbyte
    have hle : (0x20 : UInt8).toNat = 0x20 := rfl
    rw [UInt8.le_iff_toNat_le]
    omega

/-- A text is written without control characters, its quotes included. -/
@[simp] private theorem oneLine_writeText (s : String) : OneLine (writeText s) := by
  have hchars : OneLine (s.toList.flatMap writeChar) := by
    intro byte hbyte
    obtain ⟨c, -, hbyte⟩ := List.mem_flatMap.1 hbyte
    exact oneLine_writeChar c byte hbyte
  simp [writeText, hchars]

/-! ### Values -/

/-- The members of a container stay on one line if each of them does. -/
private theorem oneLine_members {parts : List Bytes} (h : ∀ part ∈ parts, OneLine part)
    (first : Bool) :
    OneLine (members first parts) := by
  induction parts generalizing first with
  | nil => simp [members]
  | cons part parts ih =>
    obtain ⟨hpart, hparts⟩ := List.forall_mem_cons.1 h
    cases first <;> simp [members, comma, hpart, ih hparts]

/-- A container stays on one line if its members do. -/
private theorem oneLine_enclosed {opening closing : UInt8} (hopening : 0x20 ≤ opening)
    (hclosing : 0x20 ≤ closing) {parts : List Bytes} (h : ∀ part ∈ parts, OneLine part) :
    OneLine (opening :: (separated parts ++ [closing])) := by
  simp [separated_eq, oneLine_members h, hopening, hclosing]

/-- An array stays on one line if its elements do. -/
private theorem oneLine_writeArray {elements : List Bytes}
    (h : ∀ element ∈ elements, OneLine element) :
    OneLine (writeArray elements) :=
  oneLine_enclosed (by decide) (by decide) h

/-- An object stays on one line if its fields do. -/
private theorem oneLine_writeObject {fields : List Bytes} (h : ∀ field ∈ fields, OneLine field) :
    OneLine (writeObject fields) :=
  oneLine_enclosed (by decide) (by decide) h

/-- A field stays on one line if its value does. -/
private theorem oneLine_writeField (key : String) {value : Bytes} (h : OneLine value) :
    OneLine (writeField key value) := by
  simp [writeField, h]

mutual

/-- **A written value stays on one line**, whatever its keys and texts hold. -/
theorem oneLine_write : (v : Value) → OneLine (write v)
  | .nil => oneLine_ascii (by simp [IsVisible])
  | .bool true => oneLine_ascii (by simp [IsVisible])
  | .bool false => oneLine_ascii (by simp [IsVisible])
  | .int n => oneLine_writeInt n.toInt
  | .uint n => oneLine_writeNat n.toNat
  | .float x => oneLine_writeFloat x
  | .text s => oneLine_writeText s
  | .binary b =>
    oneLine_writeArray (List.forall_mem_map.2 fun byte _ => oneLine_writeNat byte.toNat)
  | .array items => oneLine_writeArray (oneLine_writeItems items)
  | .map fields => oneLine_writeObject (oneLine_writeFields fields)

/-- Each written item stays on one line. -/
private theorem oneLine_writeItems : (items : List Value) → ∀ part ∈ writeItems items, OneLine part
  | [] => List.forall_mem_nil _
  | v :: rest => List.forall_mem_cons.2 ⟨oneLine_write v, oneLine_writeItems rest⟩

/-- Each written field stays on one line. -/
private theorem oneLine_writeFields : (fields : List (String × Value)) →
    ∀ part ∈ writeFields fields, OneLine part
  | [] => List.forall_mem_nil _
  | (k, v) :: rest =>
    List.forall_mem_cons.2 ⟨oneLine_writeField k (oneLine_write v), oneLine_writeFields rest⟩

end

end Json

end ForwardIntake
