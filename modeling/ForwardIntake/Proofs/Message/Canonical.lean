import ForwardIntake.Message.Decode
import ForwardIntake.Proofs.Value.Received
import ForwardIntake.Proofs.Wire.Reading

/-!
# What is read comes back as it is

Both codecs read canonical values only: an integer that is not negative is read as unsigned, and the
fields of a map are kept in order while they are read.  So a value that was read may be sent on, and
the next reader sees the same value (`Codec.canonical_of_read`).
-/

namespace ForwardIntake

open Value

namespace MessagePack

open Reading

variable {b : Bytes}

/-! ### MessagePack -/

/-- No integer is below those of 64 bits. -/
def Head.InRange : Head → Prop
  | .integer n => -2 ^ 63 ≤ n
  | _ => True

/-- Reading fewer than 64 bits as signed stays in the range of 64 bits. -/
private theorem le_signed {half : Nat} (h : half ≤ 2 ^ 63) (n : Nat) : -2 ^ 63 ≤ signed half n := by
  rw [signed]
  split
  · omega
  · omega

/-- A marker with a number behind it stands for what each number makes. -/
private theorem yields_word {width : Nat} {make : Nat → Head} (h : ∀ n, (make n).InRange) :
    (word width make b).Yields Head.InRange := by
  rw [word]
  split
  · exact h _
  · trivial

/-- Every marker stands for a canonical head. -/
private theorem yields_head (b : Bytes) : (head b).Yields Head.InRange := by
  cases b with
  | nil => trivial
  | cons marker rest =>
    have hpos (n : Nat) : (Head.integer n).InRange := by
      rw [Head.InRange]
      omega
    have hsigned {half : Nat} (h : half ≤ 2 ^ 63) (n : Nat) :
        (Head.integer (signed half n)).InRange := le_signed h n
    rw [head]
    -- each marker stands for no integer, for one that is not negative, or for a signed one
    repeat' split
    all_goals first
      | trivial
      | exact hpos _
      | exact hsigned (by decide) _
      | exact yields_word fun _ => trivial
      | exact yields_word hpos
      | exact yields_word (hsigned (by decide))

/-- An integer in the range of 64 bits is canonical once it is a value. -/
theorem canonical_integerValue {n : Int} (h : -2 ^ 63 ≤ n) : (integerValue n).Canonical := by
  rw [integerValue]
  split
  · rfl
  · rename_i hneg
    refine canonical_int (Int64.lt_iff_toInt_lt.2 ?_)
    rw [Int64.toInt_ofInt_of_le h (by omega)]
    exact Int.not_le.1 hneg

/-- Text is canonical, and so are bytes that are not UTF-8. -/
private theorem canonical_textValue (b : Bytes) : (textValue b).Canonical := by
  rw [textValue]
  split
  · rfl
  · rfl

/-- A payload is canonical if every value made of bytes is. -/
private theorem yields_payload {length : Nat} {make : Bytes → Value} (h : ∀ b, (make b).Canonical) :
    (payload length make b : Reading Error Value).Yields Canonical := by
  rw [payload]
  split
  · exact h _
  · trivial

/-- Canonical items are gathered into canonical items. -/
private theorem yields_items {item : Bytes → Reading Error Value}
    (hitem : ∀ b, (item b).Yields Canonical)
    {n : Nat} {acc : List Value} (hacc : ∀ v ∈ acc, v.Canonical) :
    (items item n acc b).Yields fun result => ∀ v ∈ result, v.Canonical := by
  induction n generalizing acc b with
  | zero => exact fun v hv => hacc v (List.mem_reverse.1 hv)
  | succ n ih =>
    rw [items]
    split
    · rename_i hdone
      exact ih (List.forall_mem_cons.2 ⟨(hitem b).of_done hdone, hacc⟩)
    · trivial
    · trivial

/-- Canonical fields are gathered into a map with its keys in order. -/
private theorem yields_fields {key : Bytes → Reading Error String}
    {item : Bytes → Reading Error Value}
    (hitem : ∀ b, (item b).Yields Canonical) {n : Nat} {acc : Fields} (hacc : acc.Canonical) :
    (fields key item n acc b).Yields Fields.Canonical := by
  induction n generalizing acc b with
  | zero => exact hacc
  | succ n ih =>
    rw [fields]
    split
    · split
      · rename_i hdone
        exact ih (hacc.insert _ ((hitem _).of_done hdone))
      · trivial
      · trivial
    · trivial
    · trivial

/-- A value is canonical if all values one level deeper are. -/
private theorem yields_value_of_inner {room : Nat}
    (inner : ∀ deeper, room = deeper + 1 → ∀ b, (value deeper b).Yields Canonical) (b : Bytes) :
    (value room b).Yields Canonical := by
  have hrange := yields_head b
  cases hhead : head b with
  | incomplete =>
    rw [value.eq_def, hhead]
    trivial
  | failed error =>
    rw [value.eq_def, hhead]
    trivial
  | done h rest =>
    rw [value.eq_def, hhead]
    cases h with
    | integer n => exact canonical_integerValue (hrange.of_done hhead)
    | text length => exact yields_payload canonical_textValue
    | binary length => exact yields_payload fun _ => rfl
    | array count =>
      cases room with
      | zero => trivial
      | succ deeper =>
        have hitems := yields_items (b := rest) (n := count) (inner deeper rfl)
          (List.forall_mem_nil _)
        exact hitems.map fun _ => canonical_array.2
    | map count =>
      cases room with
      | zero => trivial
      | succ deeper =>
        exact (yields_fields (inner deeper rfl) Fields.canonical_nil).map fun _ => canonical_map
    | nil => rfl
    | bool b => rfl
    | float x => rfl
    | extension => trivial

/-- **MessagePack values are canonical.** -/
theorem yields_value (room : Nat) (b : Bytes) : (value room b).Yields Canonical := by
  induction room generalizing b with
  | zero => exact yields_value_of_inner (fun _ h => absurd h (Nat.succ_ne_zero _).symm) b
  | succ room ih => exact yields_value_of_inner (fun _ h => Nat.succ.inj h ▸ ih) b

end MessagePack

namespace Json

open Reading

variable {negative : Bool} {significand : Nat} {b : Bytes}

/-! ### JSON -/

/-- An integer of JSON is canonical: unsigned, negative, or rounded to a float. -/
theorem canonical_integerValue (negative : Bool) (n : Nat) :
    (integerValue negative n).Canonical := by
  rw [integerValue]
  split
  · rfl
  · split
    · rfl
    · rename_i hfits
      refine canonical_int (Int64.lt_iff_toInt_lt.2 ?_)
      have hint : (Int64.ofInt (-n)).toInt = -n := Int64.toInt_ofInt_of_le (by omega) (by omega)
      have hzero : (0 : Int64).toInt = 0 := rfl
      omega

/-- A float is canonical, whatever its exponent. -/
private theorem yields_floatValue (e : Int) :
    (floatValue negative significand e b).Yields Canonical := by
  rw [floatValue]
  split
  · rfl
  · trivial

/-- What stands from the exponent on makes a float. -/
private theorem yields_exponentPart (shift : Int) :
    (exponentPart negative significand shift b).Yields Canonical := by
  simp only [exponentPart]
  split
  · trivial
  · split
    · split
      · exact yields_floatValue _
      · split
        · trivial
        · rfl
    · trivial

/-- What stands behind the fraction makes a float. -/
private theorem yields_afterFraction (shift : Int) :
    (afterFraction negative significand shift b).Yields Canonical := by
  cases b with
  | nil => exact yields_floatValue shift
  | cons c rest =>
    rw [afterFraction]
    split
    · exact yields_exponentPart shift
    · exact yields_floatValue shift

/-- What stands from the fraction on makes a float. -/
private theorem yields_fractionPart (shift : Nat) :
    (fractionPart negative significand shift b).Yields Canonical := by
  simp only [fractionPart]
  split
  · split
    · trivial
    · trivial
  · exact yields_afterFraction _

/-- Digits alone make an integer, or a float where they do not fit. -/
private theorem yields_integerPart (dropped : Nat) :
    (integerPart negative significand dropped b).Yields Canonical := by
  rw [integerPart]
  split
  · exact canonical_integerValue negative significand
  · exact yields_floatValue _

/-- What stands behind the integer part makes a canonical value. -/
private theorem yields_afterInteger (dropped : Nat) :
    (afterInteger negative significand dropped b).Yields Canonical := by
  cases b with
  | nil => exact yields_integerPart dropped
  | cons c rest =>
    rw [afterInteger]
    split
    · exact yields_fractionPart dropped
    · split
      · exact yields_exponentPart dropped
      · exact yields_integerPart dropped

/-- Every number is canonical. -/
private theorem yields_number (negative : Bool) (b : Bytes) :
    (number negative b).Yields Canonical := by
  cases b with
  | nil => trivial
  | cons c rest =>
    simp only [number]
    split
    · split
      · exact yields_afterInteger 0
      · split
        · trivial
        · exact yields_afterInteger 0
    · split
      · exact yields_afterInteger _
      · trivial

/-- A literal is canonical if its value is. -/
private theorem yields_literal (v : Value) (h : v.Canonical) (letters b : Bytes) :
    (literal v letters b).Yields Canonical := by
  induction letters generalizing b with
  | nil => exact h
  | cons letter letters ih =>
    cases b with
    | nil => trivial
    | cons c rest =>
      rw [literal]
      split
      · exact ih rest
      · trivial

variable {item : Reader Failure Value}

/-- Canonical elements are gathered into canonical elements. -/
private theorem yields_elements (hitem : ∀ b, (item.run b).Yields Canonical) (first : Bool)
    {acc : List Value} (hacc : ∀ v ∈ acc, v.Canonical) (b : Bytes) :
    (elements item first acc b).Yields fun result => ∀ v ∈ result, v.Canonical := by
  fun_induction elements item first acc b with
  | case1 | case2 | case4 | case5 => trivial
  | case3 => exact fun v hv => hacc v (List.mem_reverse.1 hv)
  | case6 first acc b rest value after _ hdone _ ih =>
    exact ih (List.forall_mem_cons.2 ⟨(hitem rest).of_done hdone, hacc⟩)

/-- Canonical fields are gathered into a map with its keys in order. -/
private theorem yields_fields (hitem : ∀ b, (item.run b).Yields Canonical) (first : Bool)
    {acc : Fields} (hacc : acc.Canonical) (b : Bytes) :
    (fields item first acc b).Yields Fields.Canonical := by
  have hfield (b : Bytes) : (field item b).Yields fun field => field.2.Canonical := by
    rw [field]
    refine (yields_true _).bind fun key rest _ => (yields_true _).bind fun _ rest _ => ?_
    exact (hitem rest).map fun _ hvalue => hvalue
  fun_induction fields item first acc b with
  | case1 | case2 | case4 | case5 => trivial
  | case3 => exact hacc
  | case6 first acc b rest _ key value after hdone _ ih =>
    exact ih (hacc.insert key ((hfield rest).of_done hdone))

/-- A value is canonical if all values one level deeper are. -/
private theorem yields_value {inner : Option (Reader Failure Value)}
    (hinner : ∀ item, inner = some item → ∀ b, (item.run b).Yields Canonical) (b : Bytes) :
    (value inner b).Yields Canonical := by
  simp only [value]
  split
  · trivial
  · rename_i c rest _
    split
    · exact (yields_true _).map fun _ _ => rfl
    split
    · split
      · trivial
      · rename_i item
        exact (yields_fields (hinner item rfl) true Fields.canonical_nil rest).map
          fun _ => canonical_map
    split
    · split
      · trivial
      · rename_i item
        exact (yields_elements (hinner item rfl) true (List.forall_mem_nil _) rest).map
          fun _ => canonical_array.2
    split
    · exact yields_number true rest
    split
    · exact yields_number false (c :: rest)
    split
    · exact yields_literal .nil rfl _ rest
    split
    · exact yields_literal (.bool true) rfl _ rest
    split
    · exact yields_literal (.bool false) rfl _ rest
    trivial

/-- **JSON values are canonical.** -/
private theorem yields_reader (room : Nat) (b : Bytes) :
    ((reader room).run b).Yields Canonical := by
  induction room generalizing b with
  | zero =>
    have hvalue : (value none b).Yields Canonical := yields_value (fun _ h => by cases h) b
    exact hvalue
  | succ room ih =>
    have hvalue : (value (some (reader room)) b).Yields Canonical :=
      yields_value (fun _ h => Option.some.inj h ▸ ih) b
    exact hvalue

end Json

/-- **What was read comes back as it is**, in either codec. -/
theorem Codec.canonical_of_read {codec : Codec} {b rest : Bytes} {v : Value}
    (h : codec.read b = .done v rest) : v.Canonical := by
  cases codec with
  | messagePack => exact ((MessagePack.yields_value _ b).mapError _).of_done h
  | json => exact (((Json.yields_reader _ b).mapError _).mapError _).of_done h

end ForwardIntake
