import ForwardIntake.Json.Number
import ForwardIntake.Json.Text

/-!
# Reading JSON

One value is read from the front of a byte string; nothing behind it is looked at.  Arrays and
objects read their members with a reader for the values one level further in, so `reader room` reads
values in which at most `room` containers lie inside one another.  Of fields with one key the last
one counts.

`read` reports where a fault lies; `document` also asks that nothing but space follows the value.
-/

namespace ForwardIntake

namespace Json

/-! ### Space and literals -/

/-- The bytes that may stand between the parts of JSON text. -/
def isSpace (c : UInt8) : Bool :=
  c == 0x20 || c == 0x0A || c == 0x09 || c == 0x0D

/-- Skips space. -/
def skipSpace (b : Bytes) : Bytes :=
  b.dropWhile isSpace

/-- Skipping space leaves no more bytes than there were. -/
private theorem length_skipSpace_le (b : Bytes) : (skipSpace b).length ≤ b.length :=
  (List.dropWhile_sublist isSpace).length_le

/-- Reads the given letters, which spell a value. -/
def literal (v : Value) : Bytes → Bytes → Reading Failure Value
  | [], b => .done v b
  | _ :: _, [] => .incomplete
  | letter :: letters, c :: rest =>
    if c = letter then literal v letters rest else fail .expectedIdent rest

/-- A literal leaves no more bytes than there were. -/
private theorem length_le_of_literal {v w : Value} {letters b rest : Bytes}
    (done : literal v letters b = .done w rest) : rest.length ≤ b.length := by
  induction letters generalizing b with
  | nil => cases done; exact Nat.le_refl _
  | cons letter letters ih =>
    cases b with
    | nil => cases done
    | cons c tail =>
      rw [literal] at done
      split at done
      · exact Nat.le_succ_of_le (ih done)
      · cases done

/-! ### Arrays -/

/-- Goes to the next element of an array, behind the comma unless it is the first one.  The answer
is whether there is one; the closing bracket is read when there is none. -/
def nextElement (first : Bool) (b : Bytes) : Reading Failure Bool :=
  match skipSpace b with
  | [] => .incomplete
  | c :: rest =>
    if c = 0x5D then .done false rest
    else if first then .done true (c :: rest)
    else if c = 0x2C then
      match skipSpace rest with
      | [] => .incomplete
      | d :: unread =>
        if d = 0x5D then fail .trailingComma unread else .done true (d :: unread)
    else fail .expectedListCommaOrEnd rest

/-- The way to the next element leaves no more bytes than there were. -/
theorem length_le_of_nextElement {first more : Bool} {b rest : Bytes}
    (done : nextElement first b = .done more rest) : rest.length ≤ b.length := by
  have space := length_skipSpace_le b
  simp only [nextElement] at done
  generalize skipSpace b = b' at done space
  cases b' with
  | nil => cases done
  | cons c tail =>
    have space' := length_skipSpace_le tail
    simp only [List.length_cons] at space
    simp only at done
    split at done
    · cases done
      omega
    · split at done
      · cases done
        exact space
      · split at done
        · generalize skipSpace tail = tail' at done space'
          cases tail' with
          | nil => cases done
          | cons d unread =>
            simp only at done
            split at done
            · cases done
            · cases done
              omega
        · cases done

/-- Reads the elements of an array and its closing bracket.  `acc` holds the elements read so far,
last first. -/
def elements (item : Reader Failure Value) (first : Bool) (acc : List Value) (b : Bytes) :
    Reading Failure (List Value) :=
  match h : nextElement first b with
  | .incomplete => .incomplete
  | .failed failure => .failed failure
  | .done false rest => .done acc.reverse rest
  | .done true rest =>
    match h' : item.run rest with
    | .incomplete => .incomplete
    | .failed failure => .failed failure
    | .done value after =>
      have : after.length < b.length :=
        Nat.lt_of_lt_of_le (item.progress h') (length_le_of_nextElement h)
      elements item false (value :: acc) after
termination_by b.length

private theorem length_le_of_elements {item : Reader Failure Value} {first : Bool}
    {acc result : List Value} {b rest : Bytes}
    (done : elements item first acc b = .done result rest) : rest.length ≤ b.length := by
  fun_induction elements item first acc b with
  | case1 => cases done
  | case2 => cases done
  | case3 first acc b after h =>
    cases done
    exact length_le_of_nextElement h
  | case4 => cases done
  | case5 => cases done
  | case6 first acc b after value mid h h' _ ih => exact Nat.le_trans (ih done) (Nat.le_of_lt ‹_›)

/-! ### Objects -/

/-- Goes behind the opening quote of the next key of an object.  The answer is whether there is one;
the closing brace is read when there is none. -/
def nextKey (first : Bool) (b : Bytes) : Reading Failure Bool :=
  match skipSpace b with
  | [] => .incomplete
  | c :: rest =>
    if c = 0x7D then .done false rest
    else if first then
      if c = 0x22 then .done true rest else fail .keyNotString rest
    else if c = 0x2C then
      match skipSpace rest with
      | [] => .incomplete
      | d :: unread =>
        if d = 0x22 then .done true unread
        else if d = 0x7D then fail .trailingComma unread
        else fail .keyNotString unread
    else fail .expectedObjectCommaOrEnd rest

/-- Reads the colon behind a key. -/
def colon (b : Bytes) : Reading Failure Unit :=
  match skipSpace b with
  | [] => .incomplete
  | c :: rest => if c = 0x3A then .done () rest else fail .expectedColon rest

/-- Reads a key from behind its opening quote, the colon, and the value. -/
def field (item : Reader Failure Value) (b : Bytes) : Reading Failure (String × Value) :=
  (string b).bind fun key rest =>
  (colon rest).bind fun _ rest =>
  (item.run rest).map fun value => (key, value)

theorem length_le_of_nextKey {first more : Bool} {b rest : Bytes}
    (done : nextKey first b = .done more rest) : rest.length ≤ b.length := by
  have space := length_skipSpace_le b
  simp only [nextKey] at done
  generalize skipSpace b = b' at done space
  cases b' with
  | nil => cases done
  | cons c tail =>
    have space' := length_skipSpace_le tail
    simp only [List.length_cons] at space
    simp only at done
    split at done
    · cases done
      omega
    · split at done
      · split at done
        · cases done
          omega
        · cases done
      · split at done
        · generalize skipSpace tail = tail' at done space'
          cases tail' with
          | nil => cases done
          | cons d unread =>
            simp only [List.length_cons] at space'
            simp only at done
            split at done
            · cases done
              omega
            · split at done
              · cases done
              · cases done
        · cases done

private theorem length_le_of_colon {b rest : Bytes} {u : Unit} (done : colon b = .done u rest) :
    rest.length ≤ b.length := by
  have space := length_skipSpace_le b
  simp only [colon] at done
  generalize skipSpace b = b' at done space
  cases b' with
  | nil => cases done
  | cons c tail =>
    simp only [List.length_cons] at space
    simp only at done
    split at done
    · cases done
      omega
    · cases done

/-- A field takes up the bytes of its value at least. -/
theorem length_lt_of_field {item : Reader Failure Value} {b rest : Bytes} {p : String × Value}
    (done : field item b = .done p rest) : rest.length < b.length := by
  simp only [field, Reading.bind_eq_done_iff, Reading.map_eq_done_iff] at done
  obtain ⟨_, _, key, _, _, colon, _, value, -⟩ := done
  have h₁ := string_progress key
  have h₂ := length_le_of_colon colon
  have h₃ := item.progress value
  omega

/-- Reads the fields of an object and its closing brace, and sets them in `acc`. -/
def fields (item : Reader Failure Value) (first : Bool) (acc : Fields) (b : Bytes) :
    Reading Failure Fields :=
  match h : nextKey first b with
  | .incomplete => .incomplete
  | .failed failure => .failed failure
  | .done false rest => .done acc rest
  | .done true rest =>
    match h' : field item rest with
    | .incomplete => .incomplete
    | .failed failure => .failed failure
    | .done (key, value) after =>
      have : after.length < b.length :=
        Nat.lt_of_lt_of_le (length_lt_of_field h') (length_le_of_nextKey h)
      fields item false (acc.insert key value) after
termination_by b.length

private theorem length_le_of_fields {item : Reader Failure Value} {first : Bool}
    {acc result : Fields} {b rest : Bytes} (done : fields item first acc b = .done result rest) :
    rest.length ≤ b.length := by
  fun_induction fields item first acc b with
  | case1 => cases done
  | case2 => cases done
  | case3 first acc b after h =>
    cases done
    exact length_le_of_nextKey h
  | case4 => cases done
  | case5 => cases done
  | case6 first acc b after key value mid h h' _ ih =>
    exact Nat.le_trans (ih done) (Nat.le_of_lt ‹_›)

/-! ### Values -/

/-- Reads a value whose members are read by `inner`; without it no container may be entered. -/
def value (inner : Option (Reader Failure Value)) (b : Bytes) : Reading Failure Value :=
  match skipSpace b with
  | [] => .incomplete
  | c :: rest =>
    if c = 0x22 then (string rest).map .text
    else if c = 0x7B then
      match inner with
      | none => fail .tooDeep rest
      | some item => (fields item true [] rest).map .map
    else if c = 0x5B then
      match inner with
      | none => fail .tooDeep rest
      | some item => (elements item true [] rest).map .array
    else if c = 0x2D then number true rest
    else if isDigit c then number false (c :: rest)
    else if c = 0x6E then literal .nil [0x75, 0x6C, 0x6C] rest
    else if c = 0x74 then literal (.bool true) [0x72, 0x75, 0x65] rest
    else if c = 0x66 then literal (.bool false) [0x61, 0x6C, 0x73, 0x65] rest
    else fail .expectedValue rest

/-- A value has at least one byte. -/
private theorem value_progress {inner : Option (Reader Failure Value)} {b rest : Bytes} {v : Value}
    (done : value inner b = .done v rest) : rest.length < b.length := by
  have space := length_skipSpace_le b
  simp only [value] at done
  generalize skipSpace b = b' at done space
  cases b' with
  | nil => cases done
  | cons c tail =>
    simp only [List.length_cons] at space
    simp only at done
    split at done
    · obtain ⟨_, done, -⟩ := Reading.map_eq_done_iff.1 done
      have := string_progress done
      omega
    split at done
    · split at done
      · cases done
      · obtain ⟨_, done, -⟩ := Reading.map_eq_done_iff.1 done
        have := length_le_of_fields done
        omega
    split at done
    · split at done
      · cases done
      · obtain ⟨_, done, -⟩ := Reading.map_eq_done_iff.1 done
        have := length_le_of_elements done
        omega
    split at done
    · have := number_progress done
      omega
    split at done
    · have := number_progress done
      simp only [List.length_cons] at this
      omega
    iterate 3
      split at done
      · have := length_le_of_literal done
        omega
    cases done

/-- Reads values in which `room` containers may lie inside one another. -/
def reader : Nat → Reader Failure Value
  | 0 => ⟨value none, value_progress⟩
  | room + 1 => ⟨value (some (reader room)), value_progress⟩

/-- How many containers may lie inside one another. -/
def maxDepth : Nat := 127

/-- Reads one value, and tells where a fault lies. -/
def read (b : Bytes) : Reading Error Value :=
  ((reader maxDepth).run b).mapError (·.locate b)

/-- Reads one value that nothing but space follows. -/
def document (b : Bytes) : Reading Error Value :=
  (((reader maxDepth).run b).bind fun v rest =>
    match skipSpace rest with
    | [] => .done v []
    | _ :: unread => fail .trailingCharacters unread).mapError (·.locate b)

/-- Text with a value in front has at least one byte. -/
theorem read_progress {b rest : Bytes} {v : Value} (done : read b = .done v rest) :
    rest.length < b.length :=
  (reader maxDepth).progress (Reading.mapError_eq_done_iff.1 done)

end Json

end ForwardIntake
