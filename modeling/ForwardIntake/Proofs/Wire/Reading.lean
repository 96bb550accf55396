import ForwardIntake.Wire.Reading
import Mathlib

/-!
# Reading with more bytes behind

A way of reading is steady when no bytes that arrive later can change what it has decided: they only
lengthen what follows the value.
-/

namespace ForwardIntake

namespace Reading

variable {ε α β : Type}

/-- Three readings in a row may be grouped either way. -/
theorem bind_assoc {γ : Type} (r : Reading ε α) (f : α → Bytes → Reading ε β)
    (g : β → Bytes → Reading ε γ) :
    (r.bind f).bind g = r.bind fun v rest => (f v rest).bind g := by
  cases r <;> rfl

/-- A reading in two parts is refused exactly when the first part is, or the second. -/
@[simp] theorem bind_eq_failed_iff {r : Reading ε α} {f : α → Bytes → Reading ε β} {e : ε} :
    r.bind f = .failed e ↔
      r = .failed e ∨ ∃ v mid, r = .done v mid ∧ f v mid = .failed e := by
  cases r <;> simp

/-- A reading in two parts misses bytes exactly when the first part does, or the second. -/
@[simp] theorem bind_eq_incomplete_iff {r : Reading ε α} {f : α → Bytes → Reading ε β} :
    r.bind f = .incomplete ↔
      r = .incomplete ∨ ∃ v mid, r = .done v mid ∧ f v mid = .incomplete := by
  cases r <;> simp

@[simp] theorem map_eq_incomplete_iff {r : Reading ε α} {f : α → β} :
    r.map f = .incomplete ↔ r = .incomplete := by
  cases r <;> simp

@[simp] theorem mapError_eq_incomplete_iff {ε' : Type} {r : Reading ε α} {f : ε → ε'} :
    r.mapError f = .incomplete ↔ r = .incomplete := by
  cases r <;> simp

@[simp] theorem map_eq_failed_iff {r : Reading ε α} {f : α → β} {e : ε} :
    r.map f = .failed e ↔ r = .failed e := by
  cases r <;> simp

/-- Each error of the mapped reading comes from an error of the reading itself. -/
@[simp] theorem mapError_eq_failed_iff {ε' : Type} {r : Reading ε α} {f : ε → ε'} {e : ε'} :
    r.mapError f = .failed e ↔ ∃ e', r = .failed e' ∧ f e' = e := by
  cases r <;> simp

/-- The same answer with more bytes behind those that follow a value. -/
def extend (more : Bytes) : Reading ε α → Reading ε α
  | .done value rest => .done value (rest ++ more)
  | .incomplete => .incomplete
  | .failed error => .failed error

@[simp] theorem extend_done (value : α) (rest more : Bytes) :
    (done value rest : Reading ε α).extend more = done value (rest ++ more) :=
  rfl

@[simp] theorem extend_failed (error : ε) (more : Bytes) :
    (failed error : Reading ε α).extend more = failed error :=
  rfl

/-- What was decided on some bytes stays decided when more of them arrive. -/
def Steady (f : Bytes → Reading ε α) : Prop :=
  ∀ b, f b ≠ .incomplete → ∀ more, f (b ++ more) = (f b).extend more

/-- A value read from some bytes is read from more of them as well. -/
theorem Steady.done {f : Bytes → Reading ε α} (h : Steady f) {b rest : Bytes} {v : α}
    (hdone : f b = .done v rest) (more : Bytes) : f (b ++ more) = .done v (rest ++ more) := by
  simpa [hdone] using h b (by simp [hdone]) more

/-- Bytes that are refused stay refused when more of them arrive. -/
theorem Steady.failed {f : Bytes → Reading ε α} (h : Steady f) {b : Bytes} {e : ε}
    (hfailed : f b = .failed e) (more : Bytes) : f (b ++ more) = .failed e := by
  simpa [hfailed] using h b (by simp [hfailed]) more

/-- Reading one thing and then another is steady if both are. -/
theorem Steady.bind {f : Bytes → Reading ε α} {k : α → Bytes → Reading ε β} (hf : Steady f)
    (hk : ∀ v, Steady (k v)) : Steady fun b => (f b).bind k := by
  intro b hb more
  cases h : f b with
  | done v rest =>
    simp only [h, bind_done] at hb
    simpa only [hf.done h, h, bind_done] using hk v rest hb more
  | incomplete => simp [h] at hb
  | failed e => simp [hf.failed h, h]

/-- What is done with the value does not matter. -/
theorem Steady.map {f : Bytes → Reading ε α} (k : α → β) (hf : Steady f) :
    Steady fun b => (f b).map k :=
  hf.bind fun _ _ _ _ => rfl

/-! ### What a reading yields -/

/-- The value has a property, if there is a value. -/
def Yields (P : α → Prop) : Reading ε α → Prop
  | .done value _ => P value
  | _ => True

@[simp] theorem yields_done {P : α → Prop} {value : α} {rest : Bytes} :
    (done value rest : Reading ε α).Yields P ↔ P value :=
  Iff.rfl

@[simp] theorem yields_incomplete (P : α → Prop) : (incomplete : Reading ε α).Yields P :=
  trivial

@[simp] theorem yields_failed (P : α → Prop) (error : ε) :
    (failed error : Reading ε α).Yields P :=
  trivial

@[simp] theorem yields_true (r : Reading ε α) : r.Yields fun _ => True := by
  cases r <;> simp

/-- The property, of a value that was read. -/
theorem Yields.of_done {P : α → Prop} {r : Reading ε α} (h : r.Yields P) {v : α} {rest : Bytes}
    (hdone : r = .done v rest) : P v := by
  subst hdone
  exact h

/-- What the second of two readings yields may rest on what the first one does. -/
theorem Yields.bind {P : α → Prop} {Q : β → Prop} {r : Reading ε α} {k : α → Bytes → Reading ε β}
    (h : r.Yields P) (hk : ∀ v rest, P v → (k v rest).Yields Q) : (r.bind k).Yields Q := by
  cases r with
  | done v rest => exact hk v rest h
  | incomplete => trivial
  | failed e => trivial

/-- What is done with the value may rest on what is known of it. -/
theorem Yields.map {P : α → Prop} {Q : β → Prop} {r : Reading ε α} {k : α → β} (h : r.Yields P)
    (hk : ∀ v, P v → Q (k v)) : (r.map k).Yields Q :=
  h.bind fun v _ hv => hk v hv

/-- A change of the error concerns no value. -/
theorem Yields.mapError {ε' : Type} {P : α → Prop} {r : Reading ε α} (h : r.Yields P)
    (f : ε → ε') : (r.mapError f).Yields P := by
  cases r with
  | done v rest => exact h
  | incomplete => trivial
  | failed e => trivial

end Reading

end ForwardIntake
