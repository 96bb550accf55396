import ForwardIntake.Bytes

/-!
# Reading values off the wire

What reading at the front of a byte string can come to.  The bytes may end too early, and that is
no error: more of them may still arrive.  A `Reader` is a way of reading that uses up at least one
byte whenever it succeeds, so a loop over a reader ends.
-/

namespace ForwardIntake

/-- The outcome of reading at the front of a byte string. -/
inductive Reading (ε α : Type) where
  /-- A value was read; `rest` is what follows it. -/
  | done (value : α) (rest : Bytes)
  /-- The bytes end before the value does. -/
  | incomplete
  /-- No continuation of the bytes begins with a value. -/
  | failed (error : ε)
  deriving Repr

namespace Reading

variable {ε ε' α β : Type}

/-- Continues with the value and the bytes after it. -/
def bind (r : Reading ε α) (f : α → Bytes → Reading ε β) : Reading ε β :=
  match r with
  | .done value rest => f value rest
  | .incomplete => .incomplete
  | .failed error => .failed error

/-- Applies a function to the value. -/
def map (f : α → β) (r : Reading ε α) : Reading ε β :=
  r.bind fun value rest => .done (f value) rest

/-- Applies a function to the error. -/
def mapError (f : ε → ε') (r : Reading ε α) : Reading ε' α :=
  match r with
  | .done value rest => .done value rest
  | .incomplete => .incomplete
  | .failed error => .failed (f error)

variable (value : α) (rest : Bytes) (error : ε)

@[simp] theorem bind_done (f : α → Bytes → Reading ε β) :
    (done value rest).bind f = f value rest :=
  rfl

@[simp] theorem bind_incomplete (f : α → Bytes → Reading ε β) :
    (incomplete : Reading ε α).bind f = incomplete :=
  rfl

@[simp] theorem bind_failed (f : α → Bytes → Reading ε β) :
    (failed error : Reading ε α).bind f = failed error :=
  rfl

@[simp] theorem map_done (f : α → β) :
    (done value rest : Reading ε α).map f = done (f value) rest :=
  rfl

@[simp] theorem map_incomplete (f : α → β) : (incomplete : Reading ε α).map f = incomplete :=
  rfl

@[simp] theorem map_failed (f : α → β) : (failed error : Reading ε α).map f = failed error :=
  rfl

@[simp] theorem mapError_done (f : ε → ε') :
    (done value rest : Reading ε α).mapError f = done value rest :=
  rfl

@[simp] theorem mapError_incomplete (f : ε → ε') :
    (incomplete : Reading ε α).mapError f = incomplete :=
  rfl

@[simp] theorem mapError_failed (f : ε → ε') :
    (failed error : Reading ε α).mapError f = failed (f error) :=
  rfl

variable {value rest}

/-- A reading in two parts yields a value exactly when both parts do. -/
@[simp] theorem bind_eq_done_iff {r : Reading ε α} {f : α → Bytes → Reading ε β} {value : β} :
    r.bind f = .done value rest ↔ ∃ v mid, r = .done v mid ∧ f v mid = .done value rest := by
  cases r with
  | done v mid =>
    refine ⟨fun h => ⟨v, mid, rfl, h⟩, ?_⟩
    rintro ⟨_, _, ⟨⟩, h⟩
    exact h
  | incomplete => simp
  | failed e => simp

/-- Applying a function to the value changes neither whether there is one nor what follows it. -/
@[simp] theorem map_eq_done_iff {r : Reading ε α} {f : α → β} {value : β} :
    r.map f = .done value rest ↔ ∃ v, r = .done v rest ∧ f v = value := by
  rw [map, bind_eq_done_iff]
  constructor
  · rintro ⟨v, mid, h, ⟨⟩⟩
    exact ⟨v, h, rfl⟩
  · rintro ⟨v, h, rfl⟩
    exact ⟨v, rest, h, rfl⟩

/-- Applying a function to the error leaves the values alone. -/
@[simp] theorem mapError_eq_done_iff {r : Reading ε α} {f : ε → ε'} :
    r.mapError f = .done value rest ↔ r = .done value rest := by
  cases r <;> simp

end Reading

/-- A way of reading that uses up at least one byte whenever it succeeds. -/
structure Reader (ε α : Type) where
  run : Bytes → Reading ε α
  progress : ∀ {b : Bytes} {value : α} {rest : Bytes},
    run b = .done value rest → rest.length < b.length

end ForwardIntake
