import ForwardIntake.Frame.Brackets
import Mathlib

/-!
# What a walk over brackets comes to

A walk over brackets that is broken off at the end of a buffer has gone over all of its bytes, and
none of them closed the message (`BracketWalk.over?`).  So it goes on from there as if the buffer
had been longer from the start (`advance_append_of_over?`); and where a byte closes the message,
what follows has no influence any more (`advance_append_of_over?_eq_none`).

A walk is outside of strings, inside of one, or behind a backslash there (`outside`, `inside`,
`behind`), each for any position.  `Leads s s' front` says that the bytes `front` lead from one of
them to another one without closing the message.
-/

namespace ForwardIntake

namespace Frame

namespace BracketWalk

/-! ### Going over bytes -/

/-- The walk behind some bytes; none if one of them closes the message. -/
def over? : BracketWalk → Bytes → Option BracketWalk
  | w, [] => some w
  | w, byte :: rest =>
    match w.step byte with
    | (_, true) => none
    | (next, false) => over? next rest

/-- Each byte is a step of one. -/
theorem pos_of_step {w next : BracketWalk} {byte : UInt8} {closes : Bool}
    (h : w.step byte = (next, closes)) : next.pos = w.pos + 1 := by
  have hpos : (w.step byte).1.pos = w.pos + 1 := by
    unfold step
    dsimp only
    repeat' split
    all_goals rfl
  rw [← hpos, h]

/-- A row of bytes is passed over part by part. -/
private theorem over?_append (w : BracketWalk) (front rest : Bytes) :
    w.over? (front ++ rest) = (w.over? front).bind fun w' => w'.over? rest := by
  induction front generalizing w with
  | nil => rfl
  | cons byte front ih =>
    rw [List.cons_append, over?, over?]
    split
    · rfl
    · exact ih _

/-- Passing over bytes counts them. -/
theorem pos_of_over? {w w' : BracketWalk} {b : Bytes} (h : w.over? b = some w') :
    w'.pos = w.pos + b.length := by
  induction b generalizing w with
  | nil =>
    cases h
    rfl
  | cons byte rest ih =>
    rw [over?] at h
    split at h
    · cases h
    · rename_i next hstep
      rw [ih h, pos_of_step hstep, List.length_cons]
      omega

/-- The walk over a buffer goes on behind any bytes at its front that do not close the message. -/
theorem advance_append_of_over? {w w' : BracketWalk} {front : Bytes} (size : Nat) (rest : Bytes)
    (h : w.over? front = some w') : w.advance size (front ++ rest) = w'.advance size rest := by
  induction front generalizing w with
  | nil =>
    cases h
    rfl
  | cons byte front ih =>
    rw [over?] at h
    split at h
    · cases h
    · rename_i next hstep
      rw [List.cons_append, advance, hstep]
      exact ih h

/-- A walk that passes over all bytes asks for one more. -/
theorem advance_of_over? {w w' : BracketWalk} {b : Bytes} (size : Nat) (h : w.over? b = some w') :
    w.advance size b = (.incomplete (size + 1), w') := by
  have := advance_append_of_over? size [] h
  rwa [List.append_nil] at this

/-- **The bracket that closes the message** decides on the frame alone: neither what follows nor the
size of the buffer has any influence. -/
theorem advance_append_of_over?_eq_none {w : BracketWalk} {b : Bytes} (h : w.over? b = none) :
    ∃ length w', w.pos < length ∧ length ≤ w.pos + b.length ∧
      ∀ size more, w.advance size (b ++ more) = (.complete length, w') := by
  induction b generalizing w with
  | nil => cases h
  | cons byte rest ih =>
    rw [over?] at h
    split at h
    · rename_i next hstep
      have hpos := pos_of_step hstep
      refine ⟨next.pos, next, by omega, by simp only [List.length_cons]; omega, fun size more => ?_⟩
      rw [List.cons_append, advance, hstep]
    · rename_i next hstep
      have hpos := pos_of_step hstep
      obtain ⟨length, w', hlt, hle, hadvance⟩ := ih h
      refine ⟨length, w', by omega, by simp only [List.length_cons]; omega, fun size more => ?_⟩
      rw [List.cons_append, advance, hstep]
      exact hadvance size more

/-- The message ends behind the walk. -/
private theorem lt_of_advance {w : BracketWalk} {b : Bytes} {size length : Nat}
    (h : (w.advance size b).1 = .complete length) : w.pos < length := by
  cases hover : w.over? b with
  | some w' =>
    rw [advance_of_over? size hover] at h
    cases h
  | none =>
    obtain ⟨length', w', hlt, -, hadvance⟩ := advance_append_of_over?_eq_none hover
    have halone := hadvance size []
    rw [List.append_nil] at halone
    rw [halone] at h
    cases h
    exact hlt

/-! ### Moving a walk -/

/-- The walk over the same bytes, `k` bytes further into a buffer. -/
def shift (k : Nat) (w : BracketWalk) : BracketWalk :=
  { w with pos := w.pos + k }

/-- The walk does not depend on where it stands. -/
theorem step_shift (k : Nat) (w : BracketWalk) (byte : UInt8) :
    (w.shift k).step byte = ((w.step byte).1.shift k, (w.step byte).2) := by
  unfold step shift
  dsimp only
  rw [Nat.add_right_comm]
  repeat' split
  all_goals rfl

/-! ### Where a walk is -/

/-- A walk outside of strings, `depth` brackets being open. -/
def outside (depth pos : Nat) : BracketWalk :=
  ⟨pos, depth, false, false⟩

/-- A walk inside a string. -/
def inside (depth pos : Nat) : BracketWalk :=
  ⟨pos, depth, true, false⟩

/-- A walk inside a string, behind a backslash. -/
def behind (depth pos : Nat) : BracketWalk :=
  ⟨pos, depth, true, true⟩

/-- The bytes that mean something to a walk outside of strings: quotes and brackets. -/
def isMark (byte : UInt8) : Bool :=
  byte == 0x22 || byte == 0x7B || byte == 0x5B || byte == 0x7D || byte == 0x5D

variable {depth pos : Nat} {byte : UInt8}

theorem step_outside_of_not_mark (h : isMark byte = false) :
    (outside depth pos).step byte = (outside depth (pos + 1), false) := by
  simp only [isMark, Bool.or_eq_false_iff, beq_eq_false_iff_ne] at h
  obtain ⟨⟨⟨⟨quote, brace⟩, bracket⟩, closingBrace⟩, closingBracket⟩ := h
  simp [step, outside, *]

/-- A quote opens a string. -/
theorem step_outside_quote :
    (outside depth pos).step 0x22 = (inside depth (pos + 1), false) := by
  simp [step, outside, inside]

/-- An opening bracket adds to the depth. -/
theorem step_outside_opening (h : byte = 0x7B ∨ byte = 0x5B) :
    (outside depth pos).step byte = (outside (depth + 1) (pos + 1), false) := by
  rcases h with rfl | rfl <;> simp [step, outside]

/-- A closing bracket takes from the depth, and at depth one it closes the frame. -/
theorem step_outside_closing (h : byte = 0x7D ∨ byte = 0x5D) :
    (outside (depth + 1) pos).step byte = (outside depth (pos + 1), decide (depth = 0)) := by
  cases depth <;> rcases h with rfl | rfl <;> simp [step, outside]

/-- Inside a string other bytes are passed over. -/
theorem step_inside_of_ne (quote : byte ≠ 0x22) (backslash : byte ≠ 0x5C) :
    (inside depth pos).step byte = (inside depth (pos + 1), false) := by
  simp [step, inside, *]

theorem step_inside_quote :
    (inside depth pos).step 0x22 = (outside depth (pos + 1), false) := by
  simp [step, inside, outside]

theorem step_inside_backslash :
    (inside depth pos).step 0x5C = (behind depth (pos + 1), false) := by
  simp [step, inside, behind]

/-- The byte behind a backslash is passed over. -/
theorem step_behind : (behind depth pos).step byte = (inside depth (pos + 1), false) := by
  simp [step, inside, behind]

/-- No byte closes a message inside a string. -/
private theorem exists_step_inside (depth pos : Nat) (byte : UInt8) :
    ∃ next, (inside depth pos).step byte = (next, false) := by
  by_cases quote : byte = 0x22
  · subst quote
    exact ⟨_, step_inside_quote⟩
  by_cases backslash : byte = 0x5C
  · subst backslash
    exact ⟨_, step_inside_backslash⟩
  · exact ⟨_, step_inside_of_ne quote backslash⟩

/-- A message whose walk is inside a string has two bytes to go at least. -/
theorem lt_of_advance_inside {b : Bytes} {size length : Nat}
    (h : ((inside depth pos).advance size b).1 = .complete length) : pos + 1 < length := by
  cases b with
  | nil => cases h
  | cons byte rest =>
    obtain ⟨next, hstep⟩ := exists_step_inside depth pos byte
    rw [advance, hstep] at h
    have hpos := pos_of_step hstep
    have hlt := lt_of_advance h
    rw [hpos] at hlt
    exact hlt

/-! ### Leading from one place to another -/

/-- The bytes lead a walk from one place to another, wherever they lie in a buffer, and none of them
closes the message. -/
def Leads (s s' : Nat → BracketWalk) (front : Bytes) : Prop :=
  ∀ pos, (s pos).over? front = some (s' (pos + front.length))

variable {s s' s'' : Nat → BracketWalk}

/-- No bytes lead nowhere. -/
theorem Leads.refl (s : Nat → BracketWalk) : Leads s s [] :=
  fun _ => rfl

/-- One row of bytes leads on from where another one led. -/
theorem Leads.trans {front rest : Bytes} (h₁ : Leads s s' front) (h₂ : Leads s' s'' rest) :
    Leads s s'' (front ++ rest) := by
  intro pos
  rw [over?_append, h₁, Option.bind_some, h₂, List.length_append, Nat.add_assoc]

/-- A step and what follows it. -/
theorem Leads.cons {rest : Bytes} (h₁ : ∀ pos, (s pos).step byte = (s' (pos + 1), false))
    (h₂ : Leads s' s'' rest) : Leads s s'' (byte :: rest) := by
  intro pos
  rw [over?, h₁]
  simp only
  rw [h₂, List.length_cons, Nat.add_assoc, Nat.add_comm 1]

theorem Leads.single (h : ∀ pos, (s pos).step byte = (s' (pos + 1), false)) : Leads s s' [byte] :=
  .cons h (.refl s')

/-- Bytes that are neither quotes nor brackets leave a walk outside of strings where it is. -/
theorem leads_outside {front : Bytes} (depth : Nat) (h : ∀ byte ∈ front, isMark byte = false) :
    Leads (outside depth) (outside depth) front := by
  induction front with
  | nil => exact .refl _
  | cons byte rest ih =>
    exact .cons (fun _ => step_outside_of_not_mark (h byte List.mem_cons_self))
      (ih fun c hc => h c (List.mem_cons_of_mem _ hc))

/-- A walk goes over all of the bytes. -/
def Open (s : Nat → BracketWalk) (b : Bytes) : Prop :=
  ∃ s', Leads s s' b

/-- What stays open behind some bytes stays open with them. -/
theorem Leads.isOpen {front rest : Bytes} (h₁ : Leads s s' front) (h₂ : Open s' rest) :
    Open s (front ++ rest) :=
  let ⟨s'', h₂⟩ := h₂
  ⟨s'', h₁.trans h₂⟩

end BracketWalk

end Frame

end ForwardIntake
