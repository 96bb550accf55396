import ForwardIntake.Connection.Outcome
import ForwardIntake.Proofs.Message.Draining

/-!
# Serving a stream

What a session makes of a stream, without scanners and phases: after each read the buffer is
drained, and on what is left over the session stops (`stop?`), or it reads on (`serve`).  It stops
at a frame that is refused, and where the message at the front of the buffer cannot fit into the
limit, as far as that can be told from the bytes that are there (`demand`).
-/

namespace ForwardIntake

namespace Serving

open ForwardIntake.Frame Scanner Message

/-- The error for which a buffer with a frame is refused. -/
def refusal? (b : Bytes) : Option DecodeError :=
  if (frameOf b).isIncomplete then none
  else
    match decode b with
    | .refused error => some error
    | _ => none

/-- How many bytes a buffer must have before the session can go on, as far as it knows. -/
def demand (b : Bytes) : Nat :=
  match frameOf b with
  | .incomplete needed => needed
  | _ =>
    match decode b with
    | .incomplete => b.length + 1
    | _ => 0

/-- How a session ends that is left with a buffer, if it does not read on. -/
def stop? (limit : Nat) (b : Bytes) : Option Outcome :=
  match refusal? b with
  | some error => some (.decode error)
  | none => if limit < demand b then some (.tooLarge limit) else none

/-- How a session ends that is left with a buffer at the end of the stream. -/
def ending (b : Bytes) : Outcome :=
  if b = [] then .disconnected
  else
    match decode b with
    | .refused error => .decode error
    | _ => .unexpectedEnd

/-- The record sets that a session hands on, and how it ends, when it has read `b` and the next
reads come to `chunks`. -/
def serve (limit : Nat) (b : Bytes) : List Bytes → List RecordSet × Outcome
  | [] => (delivered b, (stop? limit (leftover b)).getD (ending (leftover b)))
  | chunk :: chunks =>
    match stop? limit (leftover b) with
    | some outcome => (delivered b, outcome)
    | none =>
      let (sets, outcome) := serve limit (leftover b ++ chunk) chunks
      (delivered b ++ sets, outcome)

/-- The same, from the next read on. -/
def proceed (limit : Nat) (b : Bytes) : List Bytes → List RecordSet × Outcome
  | [] => ([], ending b)
  | chunk :: chunks => serve limit (b ++ chunk) chunks

variable {b : Bytes} {chunks : List Bytes} {limit : Nat}

/-! ### What a buffer asks for -/

/-- A frame is incomplete or found. -/
theorem incomplete_or_found (b : Bytes) :
    (∃ needed, frameOf b = .incomplete needed) ∨ (frameOf b).isIncomplete = false := by
  cases frameOf b with
  | incomplete needed => exact .inl ⟨needed, rfl⟩
  | complete length => exact .inr rfl
  | invalid => exact .inr rfl

/-- An incomplete frame is not refused. -/
theorem refusal?_of_incomplete {needed : Nat} (h : frameOf b = .incomplete needed) :
    refusal? b = none := by
  rw [refusal?, h]
  rfl

/-- An incomplete frame tells how many bytes it needs. -/
theorem demand_of_incomplete {needed : Nat} (h : frameOf b = .incomplete needed) :
    demand b = needed := by
  rw [demand, h]

/-- A frame that is found is refused if its message is. -/
theorem refusal?_of_found (found : (frameOf b).isIncomplete = false) :
    refusal? b = match decode b with
      | .refused error => some error
      | _ => none := by
  rw [refusal?, found]
  rfl

/-- A frame that is found but does not decode needs one byte more. -/
theorem demand_of_found (found : (frameOf b).isIncomplete = false) :
    demand b = match decode b with
      | .incomplete => b.length + 1
      | _ => 0 := by
  rw [demand]
  split
  · rename_i needed hframe
    rw [hframe] at found
    cases found
  · rfl

/-- Only what was found is refused. -/
theorem found_of_refusal? {error : DecodeError} (h : refusal? b = some error) :
    (frameOf b).isIncomplete = false ∧ decode b = .refused error := by
  rcases incomplete_or_found b with ⟨needed, hframe⟩ | found
  · rw [refusal?_of_incomplete hframe] at h
    cases h
  · rw [refusal?_of_found found] at h
    split at h
    · rename_i error' hdecode
      cases h
      exact ⟨found, hdecode⟩
    · cases h

/-- The session goes on if the message is not refused and may fit. -/
theorem stop?_eq_none_iff : stop? limit b = none ↔ refusal? b = none ∧ demand b ≤ limit := by
  rw [stop?]
  split
  · rename_i error hrefusal
    rw [hrefusal]
    exact ⟨nofun, fun h => absurd h.1 nofun⟩
  · rename_i hrefusal
    rw [ite_eq_right_iff, ← Nat.not_lt]
    exact ⟨fun h => ⟨hrefusal, fun hlt => absurd (h hlt) nofun⟩, fun h hlt => absurd hlt h.2⟩

/-- A session stops at a frame that is refused, or at the limit. -/
theorem stop?_eq_some {outcome : Outcome} (h : stop? limit b = some outcome) :
    (∃ error, refusal? b = some error ∧ outcome = .decode error) ∨
      limit < demand b ∧ outcome = .tooLarge limit := by
  rw [stop?] at h
  split at h
  · rename_i error hrefusal
    cases h
    exact .inl ⟨error, hrefusal, rfl⟩
  · split at h
    · rename_i hlt
      cases h
      exact .inr ⟨hlt, rfl⟩
    · cases h

/-! ### Serving step by step -/

/-- With nothing to decode the session stops or reads. -/
theorem serve_of_none (h : (decode b).sets? = none) :
    serve limit b chunks =
      match stop? limit b with
      | some outcome => ([], outcome)
      | none => proceed limit b chunks := by
  cases chunks with
  | nil =>
    rw [serve, leftover_of_none h, delivered_of_none h]
    cases stop? limit b <;> rfl
  | cons chunk chunks =>
    rw [serve, leftover_of_none h, delivered_of_none h]
    cases stop? limit b <;> rfl

/-- What is decoded is handed on first. -/
theorem serve_of_some {sets : List RecordSet} (h : (decode b).sets? = some sets) :
    serve limit b chunks =
      (sets ++ (serve limit (b.drop (decode b).consumed) chunks).1,
        (serve limit (b.drop (decode b).consumed) chunks).2) := by
  cases chunks with
  | nil => rw [serve, serve, leftover_of_some h, delivered_of_some h]
  | cons chunk chunks =>
    rw [serve, serve, leftover_of_some h, delivered_of_some h]
    cases stop? limit (leftover (b.drop (decode b).consumed)) with
    | some outcome => rfl
    | none => simp only [List.append_assoc]

/-! ### Waiting -/

/-- While the scanner waits for bytes nothing is decoded. -/
theorem sets?_eq_none_of_frameOf {needed : Nat} (small : b.length < 2 ^ 63)
    (h : frameOf b = .incomplete needed) : (decode b).sets? = none := by
  cases hsets : (decode b).sets? with
  | none => rfl
  | some sets =>
    rw [frameOf_of_sets? small hsets] at h
    cases h

/-- A session that waits for bytes asks for more than it has. -/
private theorem lt_demand (small : b.length < 2 ^ 63) (hnone : (decode b).sets? = none)
    (hrefusal : refusal? b = none) : b.length < demand b := by
  rcases incomplete_or_found b with ⟨needed, hframe⟩ | found
  · rw [demand_of_incomplete hframe]
    exact lt_of_frameOf_eq_incomplete small hframe
  · rw [refusal?_of_found found] at hrefusal
    rw [demand_of_found found]
    obtain hdecode | ⟨error, hdecode⟩ := Decoding.sets?_eq_none_iff.1 hnone
    · rw [hdecode]
      exact Nat.lt_succ_self _
    · rw [hdecode] at hrefusal
      cases hrefusal

/-- A session that reads on has room in its buffer. -/
theorem lt_limit_of_stop?_eq_none (small : b.length < 2 ^ 63) (hnone : (decode b).sets? = none)
    (h : stop? limit b = none) : b.length < limit := by
  obtain ⟨hrefusal, hdemand⟩ := stop?_eq_none_iff.1 h
  exact Nat.lt_of_lt_of_le (lt_demand small hnone hrefusal) hdemand

/-- A frame that is refused is the end of the stream. -/
theorem drain_append_of_refusal {error : DecodeError} (h : refusal? b = some error) (t : Bytes) :
    delivered (b ++ t) = [] ∧ ending (leftover (b ++ t)) = .decode error := by
  obtain ⟨found, hdecode⟩ := found_of_refusal? h
  have hsame := decode_append_of_found (body_ne_nil_of_refused hdecode) found
    (by rw [hdecode]; exact nofun) t
  rw [hdecode] at hsame
  have hnone : (decode (b ++ t)).sets? = none := by simp [hsame]
  have hne : b ++ t ≠ [] := by
    intro hnil
    rw [hnil] at hsame
    cases hsame
  rw [delivered_of_none hnone, leftover_of_none hnone, ending, if_neg hne, hsame]
  exact ⟨rfl, rfl⟩

/-! ### Buffers in memory -/

/-- No buffer that the session comes to has `2 ^ 63` bytes, more than any memory holds. -/
def InMemory (limit : Nat) (b : Bytes) : List Bytes → Prop
  | [] => b.length < 2 ^ 63
  | chunk :: chunks =>
    b.length < 2 ^ 63 ∧
      (stop? limit (leftover b) = none → InMemory limit (leftover b ++ chunk) chunks)

/-- What is in memory is small enough for the scanner. -/
theorem InMemory.small (h : InMemory limit b chunks) : b.length < 2 ^ 63 := by
  cases chunks with
  | nil => exact h
  | cons chunk chunks => exact h.1

/-- What is left behind a message is in memory. -/
theorem InMemory.of_some {sets : List RecordSet} (hsome : (decode b).sets? = some sets)
    (h : InMemory limit b chunks) : InMemory limit (b.drop (decode b).consumed) chunks := by
  have hlength : (b.drop (decode b).consumed).length < 2 ^ 63 := by
    have := h.small
    rw [List.length_drop]
    omega
  cases chunks with
  | nil => exact hlength
  | cons chunk chunks =>
    have hlater := h.2
    rw [leftover_of_some hsome] at hlater
    exact ⟨hlength, hlater⟩

theorem InMemory.read {chunk : Bytes} (hnone : (decode b).sets? = none)
    (hstop : stop? limit b = none) (h : InMemory limit b (chunk :: chunks)) :
    InMemory limit (b ++ chunk) chunks := by
  have hlater := h.2
  rw [leftover_of_none hnone] at hlater
  exact hlater hstop

/-- A stream that is in memory as a whole is so in parts. -/
theorem inMemory_of_flatten (h : (b ++ chunks.flatten).length < 2 ^ 63) :
    InMemory limit b chunks := by
  induction chunks generalizing b with
  | nil =>
    rw [List.flatten_nil, List.append_nil] at h
    exact h
  | cons chunk chunks ih =>
    rw [List.flatten_cons] at h
    have hlater := leftover_append_lt h
    rw [← List.append_assoc] at hlater
    rw [List.length_append] at h
    exact ⟨by omega, fun _ => ih hlater⟩

end Serving

end ForwardIntake
