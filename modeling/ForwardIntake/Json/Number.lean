import ForwardIntake.Json.Error
import ForwardIntake.Value.Basic

/-!
# JSON numbers

A number without fraction and exponent is an integer if it fits 64 bits.  Every other number is a
float, and it is not the nearest one: the digits are gathered into a significand below `2 ^ 64` and
a power of ten, the significand is rounded to a float, and that float is multiplied or divided by
the float of the power of ten (`scale`).  Digits that no longer fit are dropped (`absorb`).
-/

namespace ForwardIntake

namespace Json

/-- The bytes of the ten digits. -/
def isDigit (c : UInt8) : Bool :=
  0x30 ≤ c && c ≤ 0x39

/-- The number of a digit. -/
def digitValue (c : UInt8) : Nat :=
  c.toNat - 0x30

/-! ### Significand and scale -/

/-- Appends digits to a significand for as long as it stays below `2 ^ 64`, and gives the digits
that are left over. -/
def absorb (significand : Nat) : Bytes → Nat × Bytes
  | [] => (significand, [])
  | d :: ds =>
    let longer := significand * 10 + digitValue d
    if longer < 0x10000000000000000 then absorb longer ds else (significand, d :: ds)

/-- The non-negative float `f` times ten to the power `e`, rounded at each step; none if it exceeds
all floats. -/
def scale (f : Binary64) (e : Int) : Option Binary64 :=
  if e.natAbs ≤ 308 then
    if 0 ≤ e then
      let product := f.mul (.powerOfTen e.toNat)
      if product.isInfinite then none else some product
    else some (f.div (.powerOfTen (-e).toNat))
  else if f.isZero then some f
  else if 0 ≤ e then none
  else scale (f.div (.powerOfTen 308)) (e + 308)
termination_by e.natAbs

/-- The float with a sign. -/
def signedFloat (negative : Bool) (f : Binary64) : Value :=
  .float (if negative then f.neg else f)

/-- The value of a number whose digits have all been read. -/
def floatValue (negative : Bool) (significand : Nat) (e : Int) (rest : Bytes) :
    Reading Failure Value :=
  match scale (.ofNat significand) e with
  | some f => .done (signedFloat negative f) rest
  | none => fail .numberOutOfRange rest

/-- The value of an integer below `2 ^ 64` with a sign: minus zero and what is too small for 64 bits
become floats. -/
def integerValue (negative : Bool) (n : Nat) : Value :=
  if !negative then .uint (UInt64.ofNat n)
  else if n = 0 ∨ 0x8000000000000000 < n then signedFloat true (.ofNat n)
  else .int (Int64.ofInt (-n))

/-! ### The exponent part -/

/-- Appends the digits at the front to an exponent.  An exponent that does not fit 31 bits ends the
reading behind the digit that made it too large. -/
def exponentDigits (e : Nat) : Bytes → Option Nat × Bytes
  | [] => (some e, [])
  | c :: rest =>
    if isDigit c then
      let longer := e * 10 + digitValue c
      if longer < 0x80000000 then exponentDigits longer rest else (none, rest)
    else (some e, c :: rest)

/-- The sign at the front of an exponent, if any, and what follows it. -/
def exponentSign : Bytes → Bool × Bytes
  | [] => (false, [])
  | c :: rest =>
    if c = 0x2B then (false, rest) else if c = 0x2D then (true, rest) else (false, c :: rest)

/-- Reads the exponent of a number from behind its `e`; `shift` is the power of ten that is owed to
the digits before it. -/
def exponentPart (negative : Bool) (significand : Nat) (shift : Int) (b : Bytes) :
    Reading Failure Value :=
  let (down, b) := exponentSign b
  match b with
  | [] => .incomplete
  | c :: rest =>
    if isDigit c then
      match exponentDigits (digitValue c) rest with
      | (some e, rest) =>
        floatValue negative significand (if down then shift - e else shift + e) rest
      | (none, rest) =>
        -- the number is zero or beyond all floats, whatever digits the exponent still has
        if significand ≠ 0 ∧ !down then fail .numberOutOfRange rest
        else .done (signedFloat negative ⟨0⟩) (rest.dropWhile isDigit)
    else fail .invalidNumber rest

/-- Continues behind the fraction digits of a number. -/
def afterFraction (negative : Bool) (significand : Nat) (shift : Int) :
    Bytes → Reading Failure Value
  | [] => floatValue negative significand shift []
  | c :: rest =>
    if c = 0x65 ∨ c = 0x45 then exponentPart negative significand shift rest
    else floatValue negative significand shift (c :: rest)

/-! ### The fraction -/

/-- Reads the fraction of a number from behind its point. -/
def fractionPart (negative : Bool) (significand : Nat) (shift : Nat) (b : Bytes) :
    Reading Failure Value :=
  let digits := b.takeWhile isDigit
  let rest := b.dropWhile isDigit
  if digits = [] then
    match rest with
    | [] => .incomplete
    | _ :: unread => fail .invalidNumber unread
  else
    let (significand, dropped) := absorb significand digits
    afterFraction negative significand
      ((shift : Int) - (digits.length - dropped.length : Nat)) rest

/-! ### Numbers -/

/-- The value of a number that has integer digits only, `dropped` of which did not fit the
significand. -/
def integerPart (negative : Bool) (significand dropped : Nat) (rest : Bytes) :
    Reading Failure Value :=
  if dropped = 0 then .done (integerValue negative significand) rest
  else floatValue negative significand dropped rest

/-- Continues behind the integer digits of a number. -/
def afterInteger (negative : Bool) (significand dropped : Nat) : Bytes → Reading Failure Value
  | [] => integerPart negative significand dropped []
  | c :: rest =>
    if c = 0x2E then fractionPart negative significand dropped rest
    else if c = 0x65 ∨ c = 0x45 then exponentPart negative significand dropped rest
    else integerPart negative significand dropped (c :: rest)

/-- Reads a number from behind its minus sign, if it has one.  No digit may follow a leading
zero. -/
def number (negative : Bool) : Bytes → Reading Failure Value
  | [] => .incomplete
  | c :: rest =>
    if c = 0x30 then
      match rest with
      | [] => afterInteger negative 0 0 []
      | d :: unread =>
        if isDigit d then fail .invalidNumber unread else afterInteger negative 0 0 (d :: unread)
    else if isDigit c then
      let (significand, dropped) := absorb (digitValue c) (rest.takeWhile isDigit)
      afterInteger negative significand dropped.length (rest.dropWhile isDigit)
    else fail .invalidNumber rest

/-! ### Progress -/

/-- Dropping bytes from the front leaves no more of them. -/
private theorem length_dropWhile_le (p : UInt8 → Bool) (b : Bytes) :
    (b.dropWhile p).length ≤ b.length :=
  (List.dropWhile_sublist p).length_le

/-- A float gives no bytes back. -/
private theorem length_le_of_floatValue {negative : Bool} {n : Nat} {e : Int} {b rest : Bytes}
    {v : Value} (done : floatValue negative n e b = .done v rest) : rest.length ≤ b.length := by
  rw [floatValue] at done
  split at done
  · cases done
    exact Nat.le_refl _
  · cases done

/-- The digits of an exponent are taken off the front. -/
private theorem length_exponentDigits_le (e : Nat) (b : Bytes) :
    (exponentDigits e b).2.length ≤ b.length := by
  induction b generalizing e with
  | nil => exact Nat.le_refl _
  | cons c rest ih =>
    simp only [exponentDigits]
    split
    · split
      · exact Nat.le_succ_of_le (ih _)
      · exact Nat.le_succ _
    · exact Nat.le_refl _

private theorem length_exponentSign_le (b : Bytes) : (exponentSign b).2.length ≤ b.length := by
  cases b with
  | nil => exact Nat.le_refl _
  | cons c rest =>
    rw [exponentSign]
    split
    · exact Nat.le_succ _
    · split
      · exact Nat.le_succ _
      · exact Nat.le_refl _

private theorem length_le_of_exponentPart {negative : Bool} {n : Nat} {shift : Int} {b rest : Bytes}
    {v : Value} (done : exponentPart negative n shift b = .done v rest) :
    rest.length ≤ b.length := by
  have sign := length_exponentSign_le b
  simp only [exponentPart] at done
  generalize exponentSign b = signed at done sign
  obtain ⟨down, b'⟩ := signed
  cases b' with
  | nil => cases done
  | cons c tail =>
    have digits := length_exponentDigits_le (digitValue c) tail
    simp only at done
    split at done
    · generalize exponentDigits (digitValue c) tail = read at done digits
      obtain ⟨e?, after⟩ := read
      simp only [List.length_cons] at sign digits
      cases e? with
      | some e =>
        have := length_le_of_floatValue done
        omega
      | none =>
        simp only at done
        split at done
        · cases done
        · cases done
          have := length_dropWhile_le isDigit after
          omega
    · cases done

theorem length_le_of_afterFraction {negative : Bool} {n : Nat} {shift : Int} {b rest : Bytes}
    {v : Value} (done : afterFraction negative n shift b = .done v rest) :
    rest.length ≤ b.length := by
  cases b with
  | nil => exact length_le_of_floatValue done
  | cons c tail =>
    rw [afterFraction] at done
    split at done
    · exact Nat.le_succ_of_le (length_le_of_exponentPart done)
    · exact length_le_of_floatValue done

private theorem length_le_of_fractionPart {negative : Bool} {n shift : Nat} {b rest : Bytes}
    {v : Value} (done : fractionPart negative n shift b = .done v rest) :
    rest.length ≤ b.length := by
  have drop := length_dropWhile_le isDigit b
  simp only [fractionPart] at done
  split at done
  · split at done
    · cases done
    · cases done
  · exact Nat.le_trans (length_le_of_afterFraction done) drop

private theorem length_le_of_integerPart {negative : Bool} {n dropped : Nat} {b rest : Bytes}
    {v : Value} (done : integerPart negative n dropped b = .done v rest) :
    rest.length ≤ b.length := by
  rw [integerPart] at done
  split at done
  · cases done
    exact Nat.le_refl _
  · exact length_le_of_floatValue done

/-- What follows the integer part leaves no more bytes than there were. -/
theorem length_le_of_afterInteger {negative : Bool} {n dropped : Nat} {b rest : Bytes}
    {v : Value} (done : afterInteger negative n dropped b = .done v rest) :
    rest.length ≤ b.length := by
  cases b with
  | nil => exact length_le_of_integerPart done
  | cons c tail =>
    rw [afterInteger] at done
    split at done
    · exact Nat.le_succ_of_le (length_le_of_fractionPart done)
    · split at done
      · exact Nat.le_succ_of_le (length_le_of_exponentPart done)
      · exact length_le_of_integerPart done

/-- A number has at least one byte. -/
theorem number_progress {negative : Bool} {b rest : Bytes} {v : Value}
    (done : number negative b = .done v rest) : rest.length < b.length := by
  cases b with
  | nil => cases done
  | cons c tail =>
    refine Nat.lt_succ_of_le ?_
    simp only [number] at done
    split at done
    · cases tail with
      | nil => exact length_le_of_afterInteger done
      | cons d unread =>
        simp only at done
        split at done
        · cases done
        · exact length_le_of_afterInteger done
    · split at done
      · exact Nat.le_trans (length_le_of_afterInteger done) (length_dropWhile_le isDigit tail)
      · cases done

end Json

end ForwardIntake
