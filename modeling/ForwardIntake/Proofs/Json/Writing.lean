import ForwardIntake.Json.Writer
import ForwardIntake.Proofs.Json.Reader
import ForwardIntake.Proofs.Value.Received

/-!
# Reading JSON that was written

A written value without floats and raw bytes is read back as `Value.received`, provided that it is
nested no deeper than is allowed (`run_write`).  Floats are left out since the reader does not round
them to the nearest one, and raw bytes come back as an array of numbers.

Only a number needs to know what stands behind it, for it must not go on there (`EndsNumber`).  The
members of a container are read back one by one, each behind the comma that stands before it, if any
does (`comma`).
-/

namespace ForwardIntake

namespace Value

mutual

/-- No float at any depth. -/
@[simp] def Floatless : Value → Prop
  | .float _ => False
  | .array items => ItemsFloatless items
  | .map fields => FieldsFloatless fields
  | _ => True

/-- No float in any item. -/
@[simp] def ItemsFloatless : List Value → Prop
  | [] => True
  | v :: rest => Floatless v ∧ ItemsFloatless rest

/-- No float in the value of any field. -/
@[simp] def FieldsFloatless : List (String × Value) → Prop
  | [] => True
  | (_, v) :: rest => Floatless v ∧ FieldsFloatless rest

end

end Value

namespace Json

open Value

variable {inner : Option (Reader Failure Value)} {item : Reader Failure Value} {rest : Bytes}

/-! ### Numbers -/

/-- The number that digits spell behind the number `m`. -/
def spell (m : Nat) (digits : Bytes) : Nat :=
  digits.foldl (fun m d => m * 10 + digitValue d) m

/-- More digits make the number no smaller. -/
private theorem le_spell (m : Nat) (digits : Bytes) : m ≤ spell m digits := by
  induction digits generalizing m with
  | nil => exact Nat.le_refl m
  | cons d digits ih =>
    have := ih (m * 10 + digitValue d)
    simp only [spell, List.foldl_cons] at this ⊢
    omega

/-- Digits of a number that fits are taken into the significand one and all. -/
private theorem absorb_eq {m : Nat} {digits : Bytes} (h : spell m digits < 2 ^ 64) :
    absorb m digits = (spell m digits, []) := by
  induction digits generalizing m with
  | nil => rfl
  | cons d digits ih =>
    have hle := le_spell (m * 10 + digitValue d) digits
    have hfits : m * 10 + digitValue d < 0x10000000000000000 := Nat.lt_of_le_of_lt hle h
    rw [absorb, if_pos hfits, ih h]
    rfl

/-- A digit is one byte, between those of zero and nine. -/
private theorem toNat_ofNat_of_isDigit {c : Char} (h : c.isDigit = true) :
    (UInt8.ofNat c.toNat).toNat = c.toNat ∧ 0x30 ≤ c.toNat ∧ c.toNat ≤ 0x39 := by
  have hrange : 0x30 ≤ c.toNat ∧ c.toNat ≤ 0x39 := Char.isDigit_iff_toNat.1 h
  have hbyte : c.toNat < 0x100 := by omega
  exact ⟨UInt8.toNat_ofNat_of_lt hbyte, hrange⟩

/-- A decimal numeral consists of digits. -/
theorem isDigit_of_mem_toDigits {n : Nat} {c : Char} (h : c ∈ Nat.toDigits 10 n) :
    c.isDigit = true :=
  Nat.isDigit_of_mem_toDigits (by decide) (by decide) h

/-- A natural number is written as its decimal numeral. -/
private theorem writeNat_eq (n : Nat) :
    writeNat n = (Nat.toDigits 10 n).map fun c => UInt8.ofNat c.toNat := by
  rw [writeNat, ascii, Nat.toString_eq_repr, Nat.toList_repr]

/-- A written natural number consists of digits. -/
theorem isDigit_of_mem_writeNat {n : Nat} : ∀ c ∈ writeNat n, isDigit c = true := by
  rw [writeNat_eq]
  refine List.forall_mem_map.2 fun c hc => ?_
  obtain ⟨hbyte, hlow, hhigh⟩ := toNat_ofNat_of_isDigit (isDigit_of_mem_toDigits hc)
  simp only [isDigit, Bool.and_eq_true, decide_eq_true_eq, UInt8.le_iff_toNat_le, hbyte]
  exact ⟨hlow, hhigh⟩

/-- A written natural number has a digit. -/
private theorem writeNat_ne_nil (n : Nat) : writeNat n ≠ [] := by
  rw [writeNat_eq]
  exact List.map_eq_nil_iff.not.2 Nat.toDigits_ne_nil

/-- The digits of a written number spell that number. -/
private theorem spell_writeNat (n : Nat) : spell 0 (writeNat n) = n := by
  have hdigits : spell 0 (writeNat n) = Nat.ofDigitChars 10 (Nat.toDigits 10 n) 0 := by
    rw [writeNat_eq, spell, List.foldl_map, Nat.ofDigitChars_eq_foldl]
    refine List.foldl_ext _ _ _ fun m c hc => ?_
    obtain ⟨hbyte, -⟩ := toNat_ofNat_of_isDigit (isDigit_of_mem_toDigits hc)
    rw [digitValue, hbyte, Nat.mul_comm]
    rfl
  rw [hdigits, Nat.ofDigitChars_ten_toDigits]

/-- Only zero begins with the digit zero. -/
private theorem exists_writeNat {n : Nat} (h : n ≠ 0) :
    ∃ c digits, writeNat n = c :: digits ∧ c ≠ 0x30 := by
  have hdigits : ∃ c cs, Nat.toDigits 10 n = c :: cs ∧ c ≠ '0' := by
    -- a number begins as the number without its last digit does, unless that is all of it
    induction n using Nat.strongRecOn with
    | ind n ih =>
      by_cases hlt : n < 10
      · exact ⟨_, [], Nat.toDigits_of_lt_base hlt, fun hc => h (Nat.digitChar_eq_zero.1 hc)⟩
      · obtain ⟨c, cs, hcs, hc⟩ := ih (n / 10) (by omega) (by omega)
        refine ⟨c, cs ++ [(n % 10).digitChar], ?_, hc⟩
        rw [Nat.toDigits_of_base_le (by decide) (Nat.not_lt.1 hlt), hcs, List.cons_append]
  obtain ⟨c, cs, hcs, hc⟩ := hdigits
  refine ⟨UInt8.ofNat c.toNat, _, by rw [writeNat_eq, hcs, List.map_cons], fun hzero => hc ?_⟩
  have hdigit : c.isDigit = true := isDigit_of_mem_toDigits (hcs ▸ List.mem_cons_self)
  have hnat := congrArg UInt8.toNat hzero
  rw [(toNat_ofNat_of_isDigit hdigit).1] at hnat
  exact Char.toNat_inj.1 hnat

/-- The bytes do not go on with a number. -/
def EndsNumber (rest : Bytes) : Prop :=
  ∀ c ∈ rest.head?, isDigit c = false ∧ c ≠ 0x2E ∧ c ≠ 0x65 ∧ c ≠ 0x45

/-- A number may stand at the end. -/
@[simp] theorem endsNumber_nil : EndsNumber [] :=
  nofun

/-- A number may stand before a byte that cannot continue it. -/
private theorem endsNumber_cons {c : UInt8} (h : isDigit c = false ∧ c ≠ 0x2E ∧ c ≠ 0x65 ∧ c ≠ 0x45)
    (rest : Bytes) : EndsNumber (c :: rest) := by
  rintro d ⟨⟩
  exact h

/-- The digits in front end where the number has to end. -/
private theorem takeWhile_digits {digits : Bytes} (h : ∀ c ∈ digits, isDigit c = true)
    (hrest : EndsNumber rest) :
    (digits ++ rest).takeWhile isDigit = digits ∧ (digits ++ rest).dropWhile isDigit = rest := by
  rw [List.takeWhile_append_of_pos h, List.dropWhile_append_of_pos h]
  cases rest with
  | nil => exact ⟨List.append_nil digits, rfl⟩
  | cons c tail =>
    have hstop : ¬isDigit c = true := Bool.eq_false_iff.1 (hrest c rfl).1
    rw [List.takeWhile_cons_of_neg hstop, List.dropWhile_cons_of_neg hstop, List.append_nil]
    exact ⟨rfl, rfl⟩

/-- An integer is over where no fraction and no exponent follows. -/
private theorem afterInteger_of_endsNumber (negative : Bool) (n : Nat) (hrest : EndsNumber rest) :
    afterInteger negative n 0 rest = .done (integerValue negative n) rest := by
  cases rest with
  | nil => rfl
  | cons c tail =>
    obtain ⟨-, hpoint, hlower, hupper⟩ := hrest c rfl
    rw [afterInteger, if_neg hpoint, if_neg (not_or.2 ⟨hlower, hupper⟩)]
    rfl

/-- **A written natural number is read back**, behind a minus sign or not. -/
private theorem number_writeNat (negative : Bool) {n : Nat} (h : n < 2 ^ 64)
    (hrest : EndsNumber rest) :
    number negative (writeNat n ++ rest) = .done (integerValue negative n) rest := by
  -- behind a zero no digit is allowed, behind any other digit all that follow are taken
  by_cases hzero : n = 0
  · subst hzero
    have hwrite : writeNat 0 = [0x30] := by decide
    rw [hwrite, List.singleton_append, number_zero, ← afterInteger_of_endsNumber negative 0 hrest]
    cases rest with
    | nil => rfl
    | cons c tail => rw [afterZero, if_neg (Bool.eq_false_iff.1 (hrest c rfl).1)]
  · obtain ⟨c, digits, hwrite, hc⟩ := exists_writeNat hzero
    have hdigits := isDigit_of_mem_writeNat (n := n)
    have hspell := spell_writeNat n
    rw [hwrite] at hdigits hspell ⊢
    obtain ⟨hfirst, hdigits⟩ := List.forall_mem_cons.1 hdigits
    have hspell : spell (digitValue c) digits = n := by
      rw [← hspell, spell, spell, List.foldl_cons, Nat.zero_mul, Nat.zero_add]
    obtain ⟨htake, hdrop⟩ := takeWhile_digits hdigits hrest
    have habsorb : absorb (digitValue c) digits = (n, []) := by
      rw [absorb_eq (by rw [hspell]; exact h), hspell]
    simp only [List.cons_append, number, if_neg hc, if_pos hfirst, htake, hdrop, habsorb]
    exact afterInteger_of_endsNumber negative n hrest

/-- A digit is none of the other bytes that a value begins with, nor one that comes before it. -/
private theorem ne_of_isDigit {c : UInt8} (h : isDigit c = true) :
    isSpace c = false ∧ c ≠ 0x22 ∧ c ≠ 0x7B ∧ c ≠ 0x5B ∧ c ≠ 0x5D ∧ c ≠ 0x2D := by
  have hne : ∀ d : UInt8, isDigit d = false → c ≠ d := by
    rintro d hd rfl
    rw [h] at hd
    cases hd
  refine ⟨?_, hne _ rfl, hne _ rfl, hne _ rfl, hne _ rfl, hne _ rfl⟩
  simp only [isSpace, Bool.or_eq_false_iff, beq_eq_false_iff_ne]
  exact ⟨⟨⟨hne _ rfl, hne _ rfl⟩, hne _ rfl⟩, hne _ rfl⟩

/-- A digit begins a number. -/
private theorem value_of_isDigit {c : UInt8} (h : isDigit c = true) (rest : Bytes) :
    value inner (c :: rest) = number false (c :: rest) := by
  obtain ⟨hspace, hquote, hbrace, hbracket, -, hminus⟩ := ne_of_isDigit h
  rw [value, skipSpace_cons hspace]
  simp only [if_neg hquote, if_neg hbrace, if_neg hbracket, if_neg hminus, if_pos h]

/-- A minus sign begins a number. -/
private theorem value_minus (rest : Bytes) : value inner (0x2D :: rest) = number true rest := by
  rw [value, skipSpace_cons rfl]
  rfl

/-- A written natural number is read back as a value. -/
private theorem value_writeNat {n : Nat} (h : n < 2 ^ 64) (hrest : EndsNumber rest) :
    value inner (writeNat n ++ rest) = .done (.uint (UInt64.ofNat n)) rest := by
  have hnumber := number_writeNat false h hrest
  obtain ⟨c, digits, hwrite⟩ := List.exists_cons_of_ne_nil (writeNat_ne_nil n)
  have hc : isDigit c = true := isDigit_of_mem_writeNat c (hwrite ▸ List.mem_cons_self)
  rw [hwrite] at hnumber ⊢
  rw [List.cons_append, value_of_isDigit hc]
  exact hnumber

/-- A written integer is read back, and is unsigned unless it is negative. -/
private theorem value_writeInt (n : Int64) (hrest : EndsNumber rest) :
    value inner (writeInt n.toInt ++ rest) = .done (ofInt64 n) rest := by
  have hlow := n.le_toInt
  have hhigh := n.toInt_lt
  rw [writeInt, ofInt64_eq]
  by_cases hneg : n.toInt < 0
  · rw [if_pos hneg, if_neg (Int.not_le.2 hneg), List.cons_append, value_minus,
      number_writeNat true (by omega) hrest, integerValue]
    have hback : -(n.toInt.natAbs : Int) = n.toInt := by omega
    have hfits : ¬(n.toInt.natAbs = 0 ∨ 0x8000000000000000 < n.toInt.natAbs) := by omega
    rw [if_neg (by decide), if_neg hfits, hback, Int64.ofInt_toInt]
  · have habs : n.toInt.natAbs = n.toInt.toNat := by omega
    rw [if_neg hneg, if_pos (Int.not_lt.1 hneg), value_writeNat (by omega) hrest, habs]

/-! ### Strings -/

/-- A written hexadecimal digit is read back. -/
private theorem hexValue?_hexDigit : ∀ d, d < 16 → hexValue? (hexDigit d) = some d := by
  decide

/-- The bytes of a string that stand for themselves. -/
def IsPlain (c : UInt8) : Prop :=
  c ≠ 0x22 ∧ c ≠ 0x5C ∧ ¬c < 0x20

/-- Bytes that stand for themselves are taken into the string one and all. -/
private theorem stringFrom_append_of_plain {bytes : Bytes} (h : ∀ c ∈ bytes, IsPlain c)
    (acc rest : Bytes) :
    stringFrom acc (bytes ++ rest) = stringFrom (bytes.reverse ++ acc) rest := by
  induction bytes generalizing acc with
  | nil => rfl
  | cons c bytes ih =>
    obtain ⟨⟨hquote, hbackslash, hcontrol⟩, hbytes⟩ := List.forall_mem_cons.1 h
    rw [List.cons_append, stringFrom_of_ne acc hquote hbackslash, if_neg hcontrol, ih hbytes,
      List.reverse_cons, List.append_assoc, List.singleton_append]

/-- Beyond ASCII no byte of a scalar value is one of ASCII. -/
theorem toNat_of_mem_encodeChar {c : Char} {byte : UInt8} (h : byte ∈ Utf8.encodeChar c) :
    byte.toNat = c.toNat ∨ 0x80 ≤ byte.toNat := by
  have hbound := Utf8.toNat_lt c
  have hhigh : ∀ n, 0x80 ≤ n → n < 0x100 → 0x80 ≤ (UInt8.ofNat n).toNat := by
    intro n hlow hbyte
    rwa [UInt8.toNat_ofNat_of_lt' hbyte]
  simp only [Utf8.encodeChar] at h
  split at h
  · rename_i hascii
    obtain rfl := List.mem_singleton.1 h
    exact .inl (UInt8.toNat_ofNat_of_lt (Nat.lt_trans hascii (by decide)))
  · refine .inr ?_
    split at h
    · simp only [List.mem_cons, List.not_mem_nil, or_false] at h
      rcases h with rfl | rfl <;> exact hhigh _ (by omega) (by omega)
    · split at h
      · simp only [List.mem_cons, List.not_mem_nil, or_false] at h
        rcases h with rfl | rfl | rfl <;> exact hhigh _ (by omega) (by omega)
      · simp only [List.mem_cons, List.not_mem_nil, or_false] at h
        rcases h with rfl | rfl | rfl | rfl <;> exact hhigh _ (by omega) (by omega)

/-- A scalar value that needs no escape is written in bytes that stand for themselves. -/
private theorem isPlain_of_mem_encodeChar {c : Char} (hquote : c.toNat ≠ 0x22)
    (hbackslash : c.toNat ≠ 0x5C) (hcontrol : ¬c.toNat < 0x20) :
    ∀ byte ∈ Utf8.encodeChar c, IsPlain byte := by
  intro byte hbyte
  have hvalue := toNat_of_mem_encodeChar hbyte
  refine ⟨?_, ?_, ?_⟩
  · rintro rfl
    exact hvalue.elim (fun h => hquote h.symm) (by decide)
  · rintro rfl
    exact hvalue.elim (fun h => hbackslash h.symm) (by decide)
  · rw [UInt8.lt_iff_toNat_lt]
    exact hvalue.elim (fun h => h ▸ hcontrol) fun h => Nat.not_lt.2 (Nat.le_trans (by decide) h)

/-- The escape of a control character is read back. -/
private theorem escape_control {c : Char} (h : c.toNat < 0x20) (rest : Bytes) :
    escape (0x75 :: 0x30 :: 0x30 :: hexDigit (c.toNat / 16) :: hexDigit (c.toNat % 16) :: rest) =
      .done c rest := by
  have hzero : hexValue? 0x30 = some 0 := by decide
  have hhigh := hexValue?_hexDigit (c.toNat / 16) (by omega)
  have hlow := hexValue?_hexDigit (c.toNat % 16) (by omega)
  have hsum : ((0 * 16 + 0) * 16 + c.toNat / 16) * 16 + c.toNat % 16 = c.toNat := by omega
  have hword : hexWord
      (0x30 :: 0x30 :: hexDigit (c.toNat / 16) :: hexDigit (c.toNat % 16) :: rest) =
      .done c.toNat rest := by
    simp only [hexWord, hzero, hhigh, hlow, hsum]
  have hunicode : ∀ b, escape (0x75 :: b) = unicodeEscape b := fun _ => rfl
  have hbasic : c.toNat < 0xD800 ∨ 0xDBFF < c.toNat := by omega
  rw [hunicode, unicodeEscape, hword, Reading.bind_done, if_neg (by omega), if_pos hbasic,
    Char.ofNat_toNat]

/-- A scalar value that is written is taken into the string that is being read. -/
private theorem stringFrom_writeChar (c : Char) (acc rest : Bytes) :
    stringFrom acc (writeChar c ++ rest) =
      stringFrom ((Utf8.encodeChar c).reverse ++ acc) rest := by
  have hescape (bytes : Bytes) (hbytes : escape (bytes ++ rest) = .done c rest) :
      stringFrom acc (0x5C :: bytes ++ rest) =
        stringFrom ((Utf8.encodeChar c).reverse ++ acc) rest := by
    rw [List.cons_append, stringFrom_backslash, hbytes, Reading.bind_done]
  -- an escape of one letter stands for one scalar value
  have hletter (letter : UInt8) (d : Char) (hd : c.toNat = d.toNat)
      (hletter : escape (letter :: rest) = .done d rest) :
      stringFrom acc ([0x5C, letter] ++ rest) =
        stringFrom ((Utf8.encodeChar c).reverse ++ acc) rest := by
    obtain rfl := Char.toNat_inj.1 hd
    exact hescape [letter] hletter
  rw [writeChar]
  split
  · exact hletter _ '\x22' ‹_› rfl
  split
  · exact hletter _ '\x5c' ‹_› rfl
  split
  · exact hletter _ '\x08' ‹_› rfl
  split
  · exact hletter _ '\x0c' ‹_› rfl
  split
  · exact hletter _ '\n' ‹_› rfl
  split
  · exact hletter _ '\r' ‹_› rfl
  split
  · exact hletter _ '\t' ‹_› rfl
  split
  · exact hescape _ (escape_control ‹_› rest)
  · exact stringFrom_append_of_plain (isPlain_of_mem_encodeChar ‹_› ‹_› ‹_›) acc rest

/-- Scalar values that are written are taken into the string one and all. -/
private theorem stringFrom_flatMap_writeChar (cs : List Char) (acc rest : Bytes) :
    stringFrom acc (cs.flatMap writeChar ++ rest) =
      stringFrom ((cs.flatMap Utf8.encodeChar).reverse ++ acc) rest := by
  induction cs generalizing acc with
  | nil => rfl
  | cons c cs ih =>
    rw [List.flatMap_cons, List.flatMap_cons, List.append_assoc, stringFrom_writeChar, ih,
      List.reverse_append, List.append_assoc]

/-- **A written text is read back** from behind its opening quote. -/
private theorem string_writeText (s : String) (rest : Bytes) :
    string (s.toList.flatMap writeChar ++ 0x22 :: rest) = .done s rest := by
  have hback : Utf8.decode? (s.toList.flatMap Utf8.encodeChar) = some s := Utf8.decode?_encode s
  rw [string, stringFrom_flatMap_writeChar, stringFrom_quote, closeString, List.append_nil,
    List.reverse_reverse, hback]

/-- A written text is read back as a value. -/
private theorem value_writeText (s : String) (rest : Bytes) :
    value inner (writeText s ++ rest) = .done (.text s) rest := by
  rw [writeText, List.cons_append, value_text, List.append_assoc, List.singleton_append,
    string_writeText, Reading.map_done]

/-! ### Containers -/

/-- The comma before a member that is not the first one. -/
def comma (first : Bool) : Bytes :=
  if first then [] else [0x2C]

/-- The members of a container from one of them on. -/
def members (first : Bool) : List Bytes → Bytes
  | [] => []
  | member :: rest => comma first ++ (member ++ members false rest)

/-- The members of a container, with a comma before each but the first. -/
theorem separated_eq (parts : List Bytes) : separated parts = members true parts := by
  induction parts with
  | nil => rfl
  | cons part parts ih =>
    cases parts with
    | nil => exact (List.append_nil part).symm
    | cons next parts =>
      have hmore : separated (part :: next :: parts) = part ++ 0x2C :: separated (next :: parts) :=
        rfl
      rw [hmore, ih]
      rfl

/-- Behind a member stands a comma or a closing bracket. -/
private theorem endsNumber_members (parts : List Bytes) {close : UInt8}
    (h : close = 0x5D ∨ close = 0x7D) (rest : Bytes) :
    EndsNumber (members false parts ++ close :: rest) := by
  cases parts with
  | nil => rcases h with rfl | rfl <;> exact endsNumber_cons (by decide) rest
  | cons part parts => exact endsNumber_cons (by decide) _

/-- The way to the next element leads over the comma before it. -/
private theorem nextElement_comma (first : Bool) {c : UInt8} (hspace : isSpace c = false)
    (hclose : c ≠ 0x5D) (rest : Bytes) :
    nextElement first (comma first ++ c :: rest) = .done true (c :: rest) := by
  cases first with
  | true =>
    rw [comma, if_pos rfl, List.nil_append, nextElement_cons hspace, if_neg hclose, if_pos rfl]
  | false =>
    have hnext : nextElement false (0x2C :: c :: rest) = elementBehindComma (c :: rest) :=
      nextElement_cons rfl false (c :: rest)
    rw [comma, if_neg Bool.false_ne_true, List.singleton_append, hnext, elementBehindComma,
      skipSpace_cons hspace]
    exact if_neg hclose

/-- An element is read and then the others. -/
private theorem elements_member {first : Bool} {acc : List Value} {v : Value} {part after : Bytes}
    (hfirst : ∃ c tail, part = c :: tail ∧ isSpace c = false ∧ c ≠ 0x5D)
    (hpart : item.run (part ++ after) = .done v after) :
    elements item first acc (comma first ++ (part ++ after)) =
      elements item false (v :: acc) after := by
  obtain ⟨c, tail, rfl, hspace, hclose⟩ := hfirst
  rw [List.cons_append] at hpart ⊢
  rw [elements_eq, nextElement_comma first hspace hclose]
  simp only [Reading.bind_done, if_true, hpart]

/-- At the bracket the array ends. -/
private theorem elements_close (first : Bool) (acc : List Value) (rest : Bytes) :
    elements item first acc (0x5D :: rest) = .done acc.reverse rest := by
  rw [elements_eq, nextElement_cons rfl, if_pos rfl]
  rfl

/-- The way to the next key leads over the comma before it. -/
private theorem nextKey_comma (first : Bool) (rest : Bytes) :
    nextKey first (comma first ++ 0x22 :: rest) = .done true rest := by
  cases first with
  | true => rfl
  | false => rfl

/-- A field is read and then the others. -/
private theorem fields_member {first : Bool} {acc : Fields} {k : String} {v : Value}
    {part after : Bytes} (hpart : item.run (part ++ after) = .done v after) :
    fields item first acc (comma first ++ (writeField k part ++ after)) =
      fields item false (acc.insert k v) after := by
  have hcolon : ∀ b, colon (0x3A :: b) = .done () b := fun _ => rfl
  have hfield : field item (k.toList.flatMap writeChar ++ 0x22 :: 0x3A :: (part ++ after)) =
      .done (k, v) after := by
    rw [field, string_writeText]
    simp only [Reading.bind_done, hcolon, hpart, Reading.map_done]
  have hbytes : writeField k part ++ after =
      0x22 :: (k.toList.flatMap writeChar ++ 0x22 :: 0x3A :: (part ++ after)) := by
    simp only [writeField, writeText, List.cons_append, List.append_assoc, List.nil_append]
  rw [hbytes, fields_eq, nextKey_comma]
  simp only [Reading.bind_done, if_true, hfield]

/-- At the brace the object ends. -/
private theorem fields_close (first : Bool) (acc : Fields) (rest : Bytes) :
    fields item first acc (0x7D :: rest) = .done acc rest := by
  rw [fields_eq, nextKey_cons rfl, if_pos rfl]
  rfl

/-! ### Values -/

/-- A written value begins with a byte that is no space and closes no array. -/
private theorem exists_write (v : Value) (hfloat : v.Floatless) :
    ∃ c tail, write v = c :: tail ∧ isSpace c = false ∧ c ≠ 0x5D := by
  have hnat : ∀ n, ∃ c tail, writeNat n = c :: tail ∧ isSpace c = false ∧ c ≠ 0x5D := by
    intro n
    obtain ⟨c, digits, hwrite⟩ := List.exists_cons_of_ne_nil (writeNat_ne_nil n)
    obtain ⟨hspace, -, -, -, hclose, -⟩ :=
      ne_of_isDigit (isDigit_of_mem_writeNat c (hwrite ▸ List.mem_cons_self))
    exact ⟨c, digits, hwrite, hspace, hclose⟩
  cases v with
  | nil => exact ⟨0x6E, _, rfl, rfl, by decide⟩
  | bool b =>
    cases b with
    | true => exact ⟨0x74, _, rfl, rfl, by decide⟩
    | false => exact ⟨0x66, _, rfl, rfl, by decide⟩
  | int n =>
    rw [write, writeInt]
    split
    · exact ⟨0x2D, _, rfl, rfl, by decide⟩
    · exact hnat _
  | uint n => exact hnat _
  | float x => exact hfloat.elim
  | text s => exact ⟨0x22, _, rfl, rfl, by decide⟩
  | binary b => exact ⟨0x5B, _, rfl, rfl, by decide⟩
  | array items => exact ⟨0x5B, _, rfl, rfl, by decide⟩
  | map fields => exact ⟨0x7B, _, rfl, rfl, by decide⟩

/-- Whatever room there is for containers, a value is read by `value`. -/
private theorem exists_run_reader (room : Nat) : ∃ inner, (reader room).run = value inner := by
  cases room with
  | zero => exact ⟨none, rfl⟩
  | succ room => exact ⟨some (reader room), rfl⟩

mutual

/-- **A written value is read back** if nothing behind it would lengthen a number. -/
theorem run_write : (v : Value) → v.Textual → v.Floatless → (room : Nat) → v.depth ≤ room →
    (rest : Bytes) → EndsNumber rest → (reader room).run (write v ++ rest) = .done v.received rest
  | .nil, _, _, room, _, rest, _ => by
    obtain ⟨inner, hrun⟩ := exists_run_reader room
    rw [hrun]
    rfl
  | .bool true, _, _, room, _, rest, _ => by
    obtain ⟨inner, hrun⟩ := exists_run_reader room
    rw [hrun]
    rfl
  | .bool false, _, _, room, _, rest, _ => by
    obtain ⟨inner, hrun⟩ := exists_run_reader room
    rw [hrun]
    rfl
  | .int n, _, _, room, _, rest, hrest => by
    obtain ⟨inner, hrun⟩ := exists_run_reader room
    rw [hrun, write, value_writeInt n hrest, received]
  | .uint n, _, _, room, _, rest, hrest => by
    obtain ⟨inner, hrun⟩ := exists_run_reader room
    rw [hrun, write, value_writeNat n.toNat_lt hrest, UInt64.ofNat_toNat, received]
  | .text s, _, _, room, _, rest, _ => by
    obtain ⟨inner, hrun⟩ := exists_run_reader room
    rw [hrun, write, value_writeText, received]
  | .array items, htext, hfloat, room, hdepth, rest, _ => by
    cases room with
    | zero => exact absurd hdepth (Nat.not_succ_le_zero _)
    | succ room =>
      have hitems := elements_writeItems items htext hfloat room (Nat.le_of_succ_le_succ hdepth)
        true [] rest
      have harray : (reader (room + 1)).run (write (.array items) ++ rest) =
          (elements (reader room) true [] (members true (writeItems items) ++ 0x5D :: rest)).map
            .array := by
        rw [write, writeArray, separated_eq, List.cons_append, List.append_assoc]
        exact value_array _ _
      rw [harray, hitems, received, Reading.map_done]
      rfl
  | .map fields, htext, hfloat, room, hdepth, rest, _ => by
    cases room with
    | zero => exact absurd hdepth (Nat.not_succ_le_zero _)
    | succ room =>
      have hfields := fields_writeFields fields htext hfloat room (Nat.le_of_succ_le_succ hdepth)
        true [] rest
      have hobject : (reader (room + 1)).run (write (.map fields) ++ rest) =
          (Json.fields (reader room) true []
            (members true (writeFields fields) ++ 0x7D :: rest)).map .map := by
        rw [write, writeObject, separated_eq, List.cons_append, List.append_assoc]
        exact value_map _ _
      rw [hobject, hfields, received, Reading.map_done]
      rfl

/-- Written elements are read back behind those that were read before. -/
private theorem elements_writeItems : (vs : List Value) → ItemsTextual vs → ItemsFloatless vs →
    (room : Nat) → itemsDepth vs ≤ room → (first : Bool) → (acc : List Value) → (rest : Bytes) →
    elements (reader room) first acc (members first (writeItems vs) ++ 0x5D :: rest) =
      .done (acc.reverse ++ receivedItems vs) rest
  | [], _, _, room, _, first, acc, rest => by
    rw [writeItems, members, List.nil_append, elements_close, receivedItems, List.append_nil]
  | v :: vs, htext, hfloat, room, hdepth, first, acc, rest => by
    rw [itemsDepth, Nat.max_le] at hdepth
    have hfirst := run_write v htext.1 hfloat.1 room hdepth.1 _
      (endsNumber_members (writeItems vs) (.inl rfl) rest)
    rw [writeItems, members, List.append_assoc, List.append_assoc,
      elements_member (exists_write v hfloat.1) hfirst,
      elements_writeItems vs htext.2 hfloat.2 room hdepth.2, receivedItems, List.reverse_cons,
      List.append_assoc, List.singleton_append]

theorem fields_writeFields : (fs : List (String × Value)) → FieldsTextual fs → FieldsFloatless fs →
    (room : Nat) → fieldsDepth fs ≤ room → (first : Bool) → (acc : Fields) → (rest : Bytes) →
    fields (reader room) first acc (members first (writeFields fs) ++ 0x7D :: rest) =
      .done ((receivedFields fs).foldl (fun acc field => acc.insert field.1 field.2) acc) rest
  | [], _, _, room, _, first, acc, rest => by
    rw [writeFields, members, List.nil_append, fields_close, receivedFields, List.foldl_nil]
  | (k, v) :: fs, htext, hfloat, room, hdepth, first, acc, rest => by
    rw [fieldsDepth, Nat.max_le] at hdepth
    have hfirst := run_write v htext.1 hfloat.1 room hdepth.1 _
      (endsNumber_members (writeFields fs) (.inr rfl) rest)
    rw [writeFields, members, List.append_assoc, List.append_assoc, fields_member hfirst,
      fields_writeFields fs htext.2 hfloat.2 room hdepth.2, receivedFields, List.foldl_cons]

end

end Json

end ForwardIntake
