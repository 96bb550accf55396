import ForwardIntake.Wire.Reading

/-!
# Faults in JSON text

Why bytes are not the beginning of a JSON value, and where the reader noticed it.  While reading, a
fault is kept together with the bytes that are still unread (`Failure`); only when it is reported is
this turned into a line and a column, both counted from one (`Failure.locate`).
-/

namespace ForwardIntake

namespace Json

/-- Why bytes are not the beginning of a JSON value. -/
inductive Fault where
  | expectedColon
  | expectedListCommaOrEnd
  | expectedObjectCommaOrEnd
  | expectedIdent
  | expectedValue
  | invalidEscape
  | invalidNumber
  | numberOutOfRange
  | invalidUnicode
  | controlCharacter
  | keyNotString
  | loneSurrogate
  | trailingComma
  | trailingCharacters
  | unfinishedSurrogatePair
  | tooDeep
  deriving DecidableEq, Repr

/-- The text of a fault. -/
def Fault.message : Fault → String
  | .expectedColon => "expected `:`"
  | .expectedListCommaOrEnd => "expected `,` or `]`"
  | .expectedObjectCommaOrEnd => "expected `,` or `\x7d`"
  | .expectedIdent => "expected ident"
  | .expectedValue => "expected value"
  | .invalidEscape => "invalid escape"
  | .invalidNumber => "invalid number"
  | .numberOutOfRange => "number out of range"
  | .invalidUnicode => "invalid unicode code point"
  | .controlCharacter => "control character (\\u0000-\\u001F) found while parsing a string"
  | .keyNotString => "key must be a string"
  | .loneSurrogate => "lone leading surrogate in hex escape"
  | .trailingComma => "trailing comma"
  | .trailingCharacters => "trailing characters"
  | .unfinishedSurrogatePair => "unexpected end of hex escape"
  | .tooDeep => "recursion limit exceeded"

/-- A fault and the bytes that were unread when it was noticed. -/
structure Failure where
  fault : Fault
  unread : Bytes
  deriving Repr

/-- A fault and its place. -/
structure Error where
  fault : Fault
  line : Nat
  column : Nat
  deriving DecidableEq, Repr

/-- The text of an error. -/
def Error.message (e : Error) : String :=
  e.fault.message ++ " at line " ++ toString e.line ++ " column " ++ toString e.column

/-- The place of a failure in the bytes that were to be read.  The column is the number of bytes
read since the last line feed. -/
def Failure.locate (whole : Bytes) (f : Failure) : Error :=
  let consumed := whole.take (whole.length - f.unread.length)
  { fault := f.fault
    line := consumed.count 0x0A + 1
    column := (consumed.reverse.takeWhile (· != 0x0A)).length }

/-- Fails at the front of the unread bytes. -/
def fail {α : Type} (fault : Fault) (unread : Bytes) : Reading Failure α :=
  .failed ⟨fault, unread⟩

section Outcomes

variable {α β : Type} (fault : Fault) (unread : Bytes)

@[simp] theorem fail_ne_incomplete : (fail fault unread : Reading Failure α) ≠ .incomplete :=
  nofun

@[simp] theorem fail_ne_done (value : α) (rest : Bytes) :
    fail fault unread ≠ .done value rest :=
  nofun

@[simp] theorem fail_bind (f : α → Bytes → Reading Failure β) :
    (fail fault unread).bind f = fail fault unread :=
  rfl

end Outcomes

end Json

end ForwardIntake
