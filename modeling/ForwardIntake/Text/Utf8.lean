import ForwardIntake.Bytes

/-!
# UTF-8

Text as bytes and back.  `encode` writes each scalar value in its shortest form.  Reading goes one
step at a time: `Front` says what stands at the front of a byte string, a scalar value or a
malformed piece, and a malformed piece is as long as it could still have been the beginning of a
scalar value.  `decode?` refuses any malformed piece, `decodeLossy` puts one replacement character
in its place.

`front_encodeChar_append` is the fact behind both round trips, `decode?_encode` and
`decodeLossy_encode`.
-/

namespace ForwardIntake

namespace Utf8

/-! ### Writing -/

/-- The bytes of one scalar value, in the shortest form. -/
def encodeChar (c : Char) : Bytes :=
  let n := c.toNat
  if n < 0x80 then
    [UInt8.ofNat n]
  else if n < 0x800 then
    [UInt8.ofNat (0xC0 + n / 64), UInt8.ofNat (0x80 + n % 64)]
  else if n < 0x10000 then
    [UInt8.ofNat (0xE0 + n / 4096), UInt8.ofNat (0x80 + n / 64 % 64), UInt8.ofNat (0x80 + n % 64)]
  else
    [UInt8.ofNat (0xF0 + n / 262144), UInt8.ofNat (0x80 + n / 4096 % 64),
      UInt8.ofNat (0x80 + n / 64 % 64), UInt8.ofNat (0x80 + n % 64)]

/-- The bytes of a text. -/
def encode (s : String) : Bytes :=
  s.toList.flatMap encodeChar

/-! ### The front of a byte string -/

/-- What stands at the front of a byte string. -/
inductive Front where
  /-- There is no byte left. -/
  | none
  /-- A scalar value, and the bytes after it. -/
  | char (c : Char) (rest : Bytes)
  /-- One malformed piece, and the bytes after it. -/
  | malformed (rest : Bytes)

/-- Reads the `k` continuation bytes that are still owed to the scalar value begun as `n`.  The
next of them lies between `low` and `high`, the later ones anywhere in the continuation range. -/
def continued : Nat → Nat → Nat → Nat → Bytes → Front
  | 0, _, _, n, rest => .char (Char.ofNat n) rest
  | _ + 1, _, _, _, [] => .malformed []
  | k + 1, low, high, n, byte :: rest =>
    if low ≤ byte.toNat ∧ byte.toNat ≤ high then
      continued k 0x80 0xBF (n * 64 + (byte.toNat - 0x80)) rest
    else
      .malformed (byte :: rest)

/-- What stands at the front.  The bounds on the second byte keep out overlong forms, surrogates
and values above the last scalar value. -/
def front : Bytes → Front
  | [] => .none
  | byte :: rest =>
    let n := byte.toNat
    if n < 0x80 then .char (Char.ofNat n) rest
    else if n < 0xC2 then .malformed rest
    else if n < 0xE0 then continued 1 0x80 0xBF (n - 0xC0) rest
    else if n = 0xE0 then continued 2 0xA0 0xBF 0 rest
    else if n = 0xED then continued 2 0x80 0x9F 0xD rest
    else if n < 0xF0 then continued 2 0x80 0xBF (n - 0xE0) rest
    else if n = 0xF0 then continued 3 0x90 0xBF 0 rest
    else if n < 0xF4 then continued 3 0x80 0xBF (n - 0xF0) rest
    else if n = 0xF4 then continued 3 0x80 0x8F 4 rest
    else .malformed rest

/-- The bytes after what stands at the front. -/
def Front.rest : Front → Bytes
  | .none => []
  | .char _ rest => rest
  | .malformed rest => rest

/-- The bytes behind a leading byte only get fewer. -/
private theorem length_rest_continued (k low high n : Nat) (b : Bytes) :
    (continued k low high n b).rest.length ≤ b.length := by
  induction k generalizing low high n b with
  | zero => simp [continued, Front.rest]
  | succ k ih =>
    cases b with
    | nil => simp [continued, Front.rest]
    | cons byte rest =>
      rw [continued]
      split
      · exact Nat.le_succ_of_le (ih _ _ _ rest)
      · simp [Front.rest]

/-- The step over the front of a non-empty byte string makes progress. -/
private theorem length_rest_front_cons (byte : UInt8) (rest : Bytes) :
    (front (byte :: rest)).rest.length ≤ rest.length := by
  rw [front]
  repeat' split
  all_goals first
    | exact Nat.le_refl _
    | exact length_rest_continued _ _ _ _ _

/-- A scalar value has at least one byte. -/
theorem length_lt_of_front_char {b rest : Bytes} {c : Char} (h : front b = .char c rest) :
    rest.length < b.length := by
  cases b with
  | nil => cases h
  | cons byte tail =>
    have := length_rest_front_cons byte tail
    rw [h] at this
    exact Nat.lt_succ_of_le this

theorem length_lt_of_front_malformed {b rest : Bytes} (h : front b = .malformed rest) :
    rest.length < b.length := by
  cases b with
  | nil => cases h
  | cons byte tail =>
    have := length_rest_front_cons byte tail
    rw [h] at this
    exact Nat.lt_succ_of_le this

/-! ### Reading -/

/-- The scalar values of a byte string after those in `acc`, last first; none if a piece is
malformed. -/
def scalars? (acc : List Char) (b : Bytes) : Option (List Char) :=
  match h : front b with
  | .none => some acc.reverse
  | .char c rest =>
    have := length_lt_of_front_char h
    scalars? (c :: acc) rest
  | .malformed _ => none
termination_by b.length

/-- The text that a byte string spells, if it is well-formed. -/
def decode? (b : Bytes) : Option String :=
  (scalars? [] b).map String.ofList

/-- The bytes from the first malformed piece on, none if every piece is well-formed. -/
def malformed (b : Bytes) : Bytes :=
  match h : front b with
  | .none => []
  | .char _ rest =>
    have := length_lt_of_front_char h
    malformed rest
  | .malformed _ => b
termination_by b.length

/-- The scalar values of a byte string after those in `acc`, last first, with U+FFFD in the place
of each malformed piece. -/
def scalarsLossy (acc : List Char) (b : Bytes) : List Char :=
  match h : front b with
  | .none => acc.reverse
  | .char c rest =>
    have := length_lt_of_front_char h
    scalarsLossy (c :: acc) rest
  | .malformed rest =>
    have := length_lt_of_front_malformed h
    scalarsLossy ('\uFFFD' :: acc) rest
termination_by b.length

/-- The text that a byte string spells, with U+FFFD in the place of each malformed piece. -/
def decodeLossy (b : Bytes) : String :=
  String.ofList (scalarsLossy [] b)

/-! ### Round trips -/

/-- The last continuation byte completes a scalar value. -/
private theorem continued_one {low high n m : Nat} {rest : Bytes} (hm : m < 256)
    (hl : low ≤ m) (hh : m ≤ high) :
    continued 1 low high n (UInt8.ofNat m :: rest) =
      .char (Char.ofNat (n * 64 + (m - 0x80))) rest := by
  have : (UInt8.ofNat m).toNat = m := by simp; omega
  simp [continued, this, hl, hh]

/-- A continuation byte with others behind it. -/
private theorem continued_succ {k low high n m : Nat} {rest : Bytes} (hm : m < 256)
    (hl : low ≤ m) (hh : m ≤ high) :
    continued (k + 1) low high n (UInt8.ofNat m :: rest) =
      continued k 0x80 0xBF (n * 64 + (m - 0x80)) rest := by
  have : (UInt8.ofNat m).toNat = m := by simp; omega
  simp [continued, this, hl, hh]

/-- The scalar values end at U+10FFFF. -/
theorem toNat_lt (c : Char) : c.toNat < 0x110000 := by
  have h := c.valid
  simp only [UInt32.isValidChar, Nat.isValidChar] at h
  have e : c.toNat = c.val.toNat := rfl
  omega

/-- Surrogates are no scalar values. -/
private theorem toNat_not_surrogate (c : Char) : ¬ (0xD800 ≤ c.toNat ∧ c.toNat ≤ 0xDFFF) := by
  have h := c.valid
  simp only [UInt32.isValidChar, Nat.isValidChar] at h
  have e : c.toNat = c.val.toNat := rfl
  omega

/-- The bytes of a scalar value are read back as that value, whatever follows. -/
private theorem front_encodeChar_append (c : Char) (rest : Bytes) :
    front (encodeChar c ++ rest) = .char c rest := by
  have back : Char.ofNat c.toNat = c := Char.ofNat_toNat c
  have bound := toNat_lt c
  have gap := toNat_not_surrogate c
  generalize hn : c.toNat = n at back bound gap
  have first : ∀ m, m < 256 → (UInt8.ofNat m).toNat = m := fun m hm => by simp; omega
  simp only [encodeChar, hn]
  split
  case isTrue h =>
    simp [front, first n (by omega), h, back]
  case isFalse h₁ =>
  split
  case isTrue h =>
    have lead : (UInt8.ofNat (0xC0 + n / 64)).toNat = 0xC0 + n / 64 := first _ (by omega)
    have n₁ : ¬ 0xC0 + n / 64 < 0x80 := by omega
    have n₂ : ¬ 0xC0 + n / 64 < 0xC2 := by omega
    have n₃ : 0xC0 + n / 64 < 0xE0 := by omega
    simp only [List.cons_append, List.nil_append, front, lead, if_neg n₁, if_neg n₂, if_pos n₃]
    rw [continued_one (by omega) (by omega) (by omega)]
    have : (0xC0 + n / 64 - 0xC0) * 64 + (0x80 + n % 64 - 0x80) = n := by omega
    rw [this, back]
  case isFalse h₂ =>
  split
  case isTrue h =>
    have lead : (UInt8.ofNat (0xE0 + n / 4096)).toNat = 0xE0 + n / 4096 := first _ (by omega)
    have n₁ : ¬ 0xE0 + n / 4096 < 0x80 := by omega
    have n₂ : ¬ 0xE0 + n / 4096 < 0xC2 := by omega
    have n₃ : ¬ 0xE0 + n / 4096 < 0xE0 := by omega
    have n₄ : 0xE0 + n / 4096 < 0xF0 := by omega
    simp only [List.cons_append, List.nil_append, front, lead, if_neg n₁, if_neg n₂, if_neg n₃,
      if_pos n₄]
    split
    case isTrue h' =>
      rw [continued_succ (by omega) (by omega) (by omega),
        continued_one (by omega) (by omega) (by omega)]
      have : (0 * 64 + (0x80 + n / 64 % 64 - 0x80)) * 64 + (0x80 + n % 64 - 0x80) = n := by omega
      rw [this, back]
    case isFalse h' =>
    split
    case isTrue h'' =>
      rw [continued_succ (by omega) (by omega) (by omega),
        continued_one (by omega) (by omega) (by omega)]
      have : (0xD * 64 + (0x80 + n / 64 % 64 - 0x80)) * 64 + (0x80 + n % 64 - 0x80) = n := by
        omega
      rw [this, back]
    case isFalse h'' =>
      rw [continued_succ (by omega) (by omega) (by omega),
        continued_one (by omega) (by omega) (by omega)]
      have : ((0xE0 + n / 4096 - 0xE0) * 64 + (0x80 + n / 64 % 64 - 0x80)) * 64 +
          (0x80 + n % 64 - 0x80) = n := by omega
      rw [this, back]
  case isFalse h₃ =>
    have lead : (UInt8.ofNat (0xF0 + n / 262144)).toNat = 0xF0 + n / 262144 := first _ (by omega)
    have n₁ : ¬ 0xF0 + n / 262144 < 0x80 := by omega
    have n₂ : ¬ 0xF0 + n / 262144 < 0xC2 := by omega
    have n₃ : ¬ 0xF0 + n / 262144 < 0xE0 := by omega
    have n₄ : ¬ 0xF0 + n / 262144 = 0xE0 := by omega
    have n₅ : ¬ 0xF0 + n / 262144 = 0xED := by omega
    have n₆ : ¬ 0xF0 + n / 262144 < 0xF0 := by omega
    simp only [List.cons_append, List.nil_append, front, lead, if_neg n₁, if_neg n₂, if_neg n₃,
      if_neg n₄, if_neg n₅, if_neg n₆]
    split
    case isTrue h' =>
      rw [continued_succ (by omega) (by omega) (by omega),
        continued_succ (by omega) (by omega) (by omega),
        continued_one (by omega) (by omega) (by omega)]
      have : ((0 * 64 + (0x80 + n / 4096 % 64 - 0x80)) * 64 + (0x80 + n / 64 % 64 - 0x80)) * 64 +
          (0x80 + n % 64 - 0x80) = n := by omega
      rw [this, back]
    case isFalse h' =>
    split
    case isTrue h'' =>
      rw [continued_succ (by omega) (by omega) (by omega),
        continued_succ (by omega) (by omega) (by omega),
        continued_one (by omega) (by omega) (by omega)]
      have : (((0xF0 + n / 262144 - 0xF0) * 64 + (0x80 + n / 4096 % 64 - 0x80)) * 64 +
          (0x80 + n / 64 % 64 - 0x80)) * 64 + (0x80 + n % 64 - 0x80) = n := by omega
      rw [this, back]
    case isFalse h'' =>
      have top : 0xF0 + n / 262144 = 0xF4 := by omega
      simp only [if_pos top]
      rw [continued_succ (by omega) (by omega) (by omega),
        continued_succ (by omega) (by omega) (by omega),
        continued_one (by omega) (by omega) (by omega)]
      have : ((4 * 64 + (0x80 + n / 4096 % 64 - 0x80)) * 64 + (0x80 + n / 64 % 64 - 0x80)) * 64 +
          (0x80 + n % 64 - 0x80) = n := by omega
      rw [this, back]

/-- Scalar values are read back from their bytes, behind those that were read before. -/
private theorem scalars?_flatMap (acc cs : List Char) :
    scalars? acc (cs.flatMap encodeChar) = some (acc.reverse ++ cs) := by
  induction cs generalizing acc with
  | nil =>
    rw [List.flatMap_nil, scalars?]
    split
    case h_1 => simp
    case h_2 h => cases h
    case h_3 h => cases h
  | cons c cs ih =>
    rw [List.flatMap_cons, scalars?]
    split
    case h_1 h => rw [front_encodeChar_append] at h; cases h
    case h_2 d rest h =>
      rw [front_encodeChar_append] at h
      cases h
      rw [ih]
      simp
    case h_3 h => rw [front_encodeChar_append] at h; cases h

/-- Nothing is replaced where scalar values are read back from their bytes. -/
private theorem scalarsLossy_flatMap (acc cs : List Char) :
    scalarsLossy acc (cs.flatMap encodeChar) = acc.reverse ++ cs := by
  induction cs generalizing acc with
  | nil =>
    rw [List.flatMap_nil, scalarsLossy]
    split
    case h_1 => simp
    case h_2 h => cases h
    case h_3 h => cases h
  | cons c cs ih =>
    rw [List.flatMap_cons, scalarsLossy]
    split
    case h_1 h => rw [front_encodeChar_append] at h; cases h
    case h_2 d rest h =>
      rw [front_encodeChar_append] at h
      cases h
      rw [ih]
      simp
    case h_3 h => rw [front_encodeChar_append] at h; cases h

/-- A text is read back from its bytes. -/
@[simp] theorem decode?_encode (s : String) : decode? (encode s) = some s := by
  simp [decode?, encode, scalars?_flatMap]

/-- Nothing is replaced in the bytes of a text. -/
@[simp] theorem decodeLossy_encode (s : String) : decodeLossy (encode s) = s := by
  simp [decodeLossy, encode, scalarsLossy_flatMap]

end Utf8

end ForwardIntake
