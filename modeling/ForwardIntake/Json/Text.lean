import ForwardIntake.Json.Error
import ForwardIntake.Text.Utf8

/-!
# JSON strings

Strings are read from behind their opening quote up to their closing one.  Escapes stand for one
scalar value each, a pair of surrogate escapes for one beyond the first plane.  Whether the bytes
are well-formed UTF-8 is settled at the closing quote, for the bytes that the string spells once its
escapes are resolved.

`writeText` writes a string with the fewest escapes: the quote, the backslash, and the control
characters.
-/

namespace ForwardIntake

namespace Json

/-! ### Escapes -/

/-- The value of a hexadecimal digit in either case. -/
def hexValue? (c : UInt8) : Option Nat :=
  let n := c.toNat
  if 0x30 ≤ n ∧ n ≤ 0x39 then some (n - 0x30)
  else if 0x41 ≤ n ∧ n ≤ 0x46 then some (n - 0x41 + 10)
  else if 0x61 ≤ n ∧ n ≤ 0x66 then some (n - 0x61 + 10)
  else none

/-- Reads four hexadecimal digits. -/
def hexWord : Bytes → Reading Failure Nat
  | a :: b :: c :: d :: rest =>
    match hexValue? a, hexValue? b, hexValue? c, hexValue? d with
    | some a, some b, some c, some d => .done (((a * 16 + b) * 16 + c) * 16 + d) rest
    | _, _, _, _ => fail .invalidEscape rest
  | _ => .incomplete

/-- Reads one given byte of the second half of a surrogate pair. -/
def pairByte (expected : UInt8) : Bytes → Reading Failure Unit
  | [] => .incomplete
  | c :: rest => if c = expected then .done () rest else fail .unfinishedSurrogatePair rest

/-- Reads the scalar value of an escape from behind `\u`. -/
def unicodeEscape (b : Bytes) : Reading Failure Char :=
  (hexWord b).bind fun n rest =>
    if 0xDC00 ≤ n ∧ n ≤ 0xDFFF then fail .loneSurrogate rest
    else if n < 0xD800 ∨ 0xDBFF < n then .done (Char.ofNat n) rest
    else
      (pairByte 0x5C rest).bind fun _ rest =>
      (pairByte 0x75 rest).bind fun _ rest =>
      (hexWord rest).bind fun m rest =>
        if m < 0xDC00 ∨ 0xDFFF < m then fail .loneSurrogate rest
        else .done (Char.ofNat (0x10000 + (n - 0xD800) * 0x400 + (m - 0xDC00))) rest

/-- Reads an escape from behind its backslash. -/
def escape : Bytes → Reading Failure Char
  | [] => .incomplete
  | c :: rest =>
    if c = 0x22 then .done '\x22' rest
    else if c = 0x5C then .done '\x5c' rest
    else if c = 0x2F then .done '/' rest
    else if c = 0x62 then .done '\x08' rest
    else if c = 0x66 then .done '\x0c' rest
    else if c = 0x6E then .done '\n' rest
    else if c = 0x72 then .done '\r' rest
    else if c = 0x74 then .done '\t' rest
    else if c = 0x75 then unicodeEscape rest
    else fail .invalidEscape rest

/-- The digits of an escape take up bytes. -/
private theorem length_lt_of_hexWord {b rest : Bytes} {n : Nat} (done : hexWord b = .done n rest) :
    rest.length < b.length := by
  match b with
  | a :: b :: c :: d :: tail =>
    simp only [hexWord] at done
    split at done
    · cases done
      simp only [List.length_cons]
      omega
    · cases done
  | [] => cases done
  | [_] => cases done
  | [_, _] => cases done
  | [_, _, _] => cases done

private theorem length_lt_of_pairByte {expected : UInt8} {b rest : Bytes} {u : Unit}
    (done : pairByte expected b = .done u rest) : rest.length < b.length := by
  cases b with
  | nil => cases done
  | cons c tail =>
    rw [pairByte] at done
    split at done
    · cases done
      exact Nat.lt_succ_self _
    · cases done

private theorem length_lt_of_unicodeEscape {b rest : Bytes} {c : Char}
    (done : unicodeEscape b = .done c rest) : rest.length < b.length := by
  simp only [unicodeEscape, Reading.bind_eq_done_iff] at done
  obtain ⟨n, mid, first, done⟩ := done
  have h₁ := length_lt_of_hexWord first
  split at done
  · cases done
  · split at done
    · cases done
      exact h₁
    · simp only [Reading.bind_eq_done_iff] at done
      obtain ⟨_, _, backslash, _, _, letter, m, _, second, done⟩ := done
      have h₂ := length_lt_of_pairByte backslash
      have h₃ := length_lt_of_pairByte letter
      have h₄ := length_lt_of_hexWord second
      split at done
      · cases done
      · obtain ⟨-, rfl⟩ := Reading.done.inj done
        omega

private theorem length_lt_of_escape {b rest : Bytes} {c : Char} (done : escape b = .done c rest) :
    rest.length < b.length := by
  cases b with
  | nil => cases done
  | cons d tail =>
    rw [escape] at done
    iterate 8
      split at done
      · cases done
        exact Nat.lt_succ_self _
    split at done
    · exact Nat.lt_succ_of_lt (length_lt_of_unicodeEscape done)
    · cases done

/-! ### Reading strings -/

/-- The string whose bytes, last first, are `acc`, its closing quote just read.  If they are
malformed, those from the first malformed piece on count as unread; so the fault is placed as many
bytes back from behind the quote as the string spells from there on, which differs from the bytes it
takes if escapes are among them. -/
def closeString (acc rest : Bytes) : Reading Failure String :=
  match Utf8.decode? acc.reverse with
  | some s => .done s rest
  | none => fail .invalidUnicode (Utf8.malformed acc.reverse ++ rest)

/-- Reads a string up to its closing quote.  `acc` holds what was read of it so far, last byte
first. -/
def stringFrom (acc : Bytes) (b : Bytes) : Reading Failure String :=
  match b with
  | [] => .incomplete
  | c :: rest =>
    if c = 0x22 then closeString acc rest
    else if c = 0x5C then
      match h : escape rest with
      | .done value after =>
        have : after.length < (c :: rest).length :=
          Nat.lt_succ_of_lt (length_lt_of_escape h)
        stringFrom ((Utf8.encodeChar value).reverse ++ acc) after
      | .incomplete => .incomplete
      | .failed failure => .failed failure
    else if c < 0x20 then fail .controlCharacter rest
    else stringFrom (c :: acc) rest
termination_by b.length
decreasing_by
  · assumption
  · exact Nat.lt_succ_self _

/-- Reads a string from behind its opening quote. -/
def string (b : Bytes) : Reading Failure String :=
  stringFrom [] b

/-- The end of a string gives no bytes back. -/
private theorem length_le_of_closeString {acc b rest : Bytes} {s : String}
    (done : closeString acc b = .done s rest) : rest.length ≤ b.length := by
  rw [closeString] at done
  split at done
  · cases done
    exact Nat.le_refl _
  · cases done

private theorem length_lt_of_stringFrom {acc b rest : Bytes} {s : String}
    (done : stringFrom acc b = .done s rest) : rest.length < b.length := by
  fun_induction stringFrom acc b with
  | case1 => cases done
  | case2 acc tail => exact Nat.lt_succ_of_le (length_le_of_closeString done)
  | case3 acc tail value after h _ _ ih =>
    exact Nat.lt_trans (ih done) (Nat.lt_succ_of_lt (length_lt_of_escape h))
  | case4 => cases done
  | case5 => cases done
  | case6 => cases done
  | case7 acc c tail _ _ _ ih => exact Nat.lt_succ_of_lt (ih done)

/-- A string has at least its closing quote. -/
theorem string_progress {b rest : Bytes} {s : String} (done : string b = .done s rest) :
    rest.length < b.length :=
  length_lt_of_stringFrom done

/-! ### Writing strings -/

/-- The lowercase hexadecimal digit of a number below sixteen. -/
def hexDigit (n : Nat) : UInt8 :=
  if n < 10 then UInt8.ofNat (0x30 + n) else UInt8.ofNat (0x61 + (n - 10))

/-- The bytes of one scalar value inside a written string. -/
def writeChar (c : Char) : Bytes :=
  let n := c.toNat
  if n = 0x22 then [0x5C, 0x22]
  else if n = 0x5C then [0x5C, 0x5C]
  else if n = 0x08 then [0x5C, 0x62]
  else if n = 0x0C then [0x5C, 0x66]
  else if n = 0x0A then [0x5C, 0x6E]
  else if n = 0x0D then [0x5C, 0x72]
  else if n = 0x09 then [0x5C, 0x74]
  else if n < 0x20 then [0x5C, 0x75, 0x30, 0x30, hexDigit (n / 16), hexDigit (n % 16)]
  else Utf8.encodeChar c

/-- A written string, with its quotes. -/
def writeText (s : String) : Bytes :=
  0x22 :: (s.toList.flatMap writeChar ++ [0x22])

end Json

end ForwardIntake
