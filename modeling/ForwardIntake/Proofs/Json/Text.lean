import ForwardIntake.Proofs.Json.Walk

/-!
# Reading JSON strings and walking over them

The walk over brackets knows of an escape only that the byte behind a backslash does not count.
That is enough: what the reader takes for an escape has neither a quote nor a backslash behind that
byte, or has it where the next escape of a pair begins.  So the walk leaves a string with the quote
that the reader takes for its end (`follows_string`).
-/

namespace ForwardIntake

namespace Json

open ForwardIntake.Frame ForwardIntake.Frame.BracketWalk

variable {depth : Nat} {b : Bytes}

/-! ### Escapes -/

/-- Neither a quote nor a backslash is a hexadecimal digit. -/
theorem ne_of_hexValue?_eq_some {c : UInt8} {n : Nat} (h : hexValue? c = some n) :
    c ≠ 0x22 ∧ c ≠ 0x5C := by
  refine ⟨?_, ?_⟩
  · rintro rfl
    simp [hexValue?] at h
  · rintro rfl
    simp [hexValue?] at h

/-- Digits that are no digits are refused whatever follows them. -/
theorem hexWord_append_of_failed {failure : Failure} (h : hexWord b = .failed failure)
    (more : Bytes) : hexWord (b ++ more) = .failed (failure.extend more) := by
  match b with
  | [] => cases h
  | [_] => cases h
  | [_, _] => cases h
  | [_, _, _] => cases h
  | x :: y :: z :: w :: rest =>
    rw [hexWord] at h
    split at h
    · cases h
    · rename_i hsome
      cases h
      rw [List.cons_append, List.cons_append, List.cons_append, List.cons_append, hexWord]
      split
      · rename_i hx hy hz hw
        exact absurd hw (hsome _ _ _ _ hx hy hz)
      · rfl

/-- The four digits of an escape leave the walk inside the string. -/
theorem follows_hexWord (b : Bytes) :
    Follows (inside depth) (Leads (inside depth) (inside depth)) false hexWord b := by
  match b with
  | [] => exact .of_incomplete rfl
  | [_] => exact .of_incomplete rfl
  | [_, _] => exact .of_incomplete rfl
  | [_, _, _] => exact .of_incomplete rfl
  | x :: y :: z :: w :: rest =>
    constructor
    · intro n unread hdone
      rw [hexWord] at hdone
      split at hdone
      · rename_i hx hy hz hw
        cases hdone
        refine ⟨[x, y, z, w], rfl, ?_, fun rest' _ => ?_⟩
        · have hplain : ∀ {c : UInt8} {n : Nat}, hexValue? c = some n →
              ∀ pos, (inside depth pos).step c = (inside depth (pos + 1), false) :=
            fun h _ => step_inside_of_ne (ne_of_hexValue?_eq_some h).1 (ne_of_hexValue?_eq_some h).2
          exact .cons (hplain hx) (.cons (hplain hy) (.cons (hplain hz) (.single (hplain hw))))
        · simp only [List.cons_append, List.nil_append, hexWord, hx, hy, hz, hw]
      · cases hdone
    · exact fun hfailed => .inl (hexWord_append_of_failed hfailed)

/-- The two bytes between the halves of a surrogate pair are read if they are the expected ones. -/
theorem follows_pairByte {s s' : Nat → BracketWalk} {expected : UInt8}
    (hstep : ∀ pos, (s pos).step expected = (s' (pos + 1), false)) (b : Bytes) :
    Follows s (Leads s s') false (pairByte expected) b := by
  cases b with
  | nil => exact .of_incomplete rfl
  | cons c rest =>
    by_cases h : c = expected
    · subst h
      exact .cons hstep (fun rest' => by rw [pairByte, if_pos rfl]) (.pure () rest)
        (Leads.cons hstep)
    · exact .fail_behind fun rest' => by rw [pairByte, if_neg h]

/-- Behind `\u` the walk stays inside the string, also over the second half of a pair. -/
private theorem follows_unicodeEscape (b : Bytes) :
    Follows (inside depth) (Leads (inside depth) (inside depth)) false unicodeEscape b := by
  refine .bind (follows_hexWord b) (fun n rest _ => ?_) .trans nofun
  refine .ite (fun _ => .fail _ rest) fun _ => .ite (fun _ => .pure _ rest) fun _ => ?_
  refine .bind (follows_pairByte (fun _ => step_inside_backslash) rest) (fun _ rest _ => ?_)
    .trans nofun
  refine .bind (follows_pairByte (fun _ => step_behind) rest) (fun _ rest _ => ?_) .trans nofun
  refine .bind (follows_hexWord rest) (fun m rest _ => ?_) .trans nofun
  exact .ite (fun _ => .fail _ rest) fun _ => .pure _ rest

/-- Behind the backslash of an escape the walk is still inside the string when the escape ends. -/
theorem follows_escape (b : Bytes) :
    Follows (behind depth) (Leads (behind depth) (inside depth)) false escape b := by
  cases b with
  | nil => exact .of_incomplete rfl
  | cons c rest =>
    refine .cons (fun _ => step_behind) (fun _ => rfl) ?_ (Leads.cons fun _ => step_behind)
    iterate 8
      refine .ite (fun _ => .pure _ rest) fun _ => ?_
    exact .ite (fun _ => follows_unicodeEscape rest) fun _ => .fail _ rest

/-! ### Strings -/

/-- A string ends at a quote. -/
theorem stringFrom_quote (acc rest : Bytes) :
    stringFrom acc (0x22 :: rest) = closeString acc rest := by
  rw [stringFrom, if_pos rfl]

/-- At a backslash a string goes on behind the escape. -/
theorem stringFrom_backslash (acc rest : Bytes) :
    stringFrom acc (0x5C :: rest) = (escape rest).bind fun value after =>
      stringFrom ((Utf8.encodeChar value).reverse ++ acc) after := by
  rw [stringFrom, if_neg (by decide), if_pos rfl]
  split
  · rename_i value after h
    simp only [h, Reading.bind_done]
  · rename_i h
    simp only [h, Reading.bind_incomplete]
  · rename_i failure h
    simp only [h, Reading.bind_failed]

/-- Any other byte of a string stands for itself, unless it is a control character. -/
theorem stringFrom_of_ne (acc : Bytes) {c : UInt8} (quote : c ≠ 0x22) (backslash : c ≠ 0x5C)
    (rest : Bytes) :
    stringFrom acc (c :: rest) =
      if c < 0x20 then fail .controlCharacter rest else stringFrom (c :: acc) rest := by
  rw [stringFrom, if_neg quote, if_neg backslash]

/-- What follows a string has no influence on it. -/
theorem closeString_eq (acc : Bytes) :
    (∃ text, closeString acc = .done text) ∨ ∀ b more, closeString acc (b ++ more) =
      .failed (Failure.extend ⟨.invalidUnicode, Utf8.malformed acc.reverse ++ b⟩ more) := by
  cases h : Utf8.decode? acc.reverse with
  | some text => exact .inl ⟨text, funext fun rest => by rw [closeString, h]⟩
  | none =>
    refine .inr fun b more => ?_
    rw [closeString, h, Failure.extend, List.append_assoc]
    rfl

/-- At the end of a string the walk has nothing more to pass. -/
private theorem follows_closeString {s : Nat → BracketWalk} (acc b : Bytes) :
    Follows s (Leads s s) false (closeString acc) b := by
  obtain ⟨text, hdone⟩ | hfailed := closeString_eq acc
  · rw [hdone]
    exact .pure text b
  · exact .of_failed (hfailed b)

/-- A string with an escape in front is followed if the rest of it is. -/
private theorem follows_stringFrom_backslash {acc rest : Bytes}
    (h : ∀ value after, escape rest = .done value after →
      Follows (inside depth) (Leads (inside depth) (outside depth)) false
        (stringFrom ((Utf8.encodeChar value).reverse ++ acc)) after) :
    Follows (inside depth) (Leads (inside depth) (outside depth)) false (stringFrom acc)
      (0x5C :: rest) :=
  .cons (fun _ => step_inside_backslash) (stringFrom_backslash acc)
    (.bind (follows_escape rest) h .trans nofun) (Leads.cons fun _ => step_inside_backslash)

/-- The walk leaves a string with its end, wherever inside the string it begins. -/
private theorem follows_stringFrom (acc b : Bytes) :
    Follows (inside depth) (Leads (inside depth) (outside depth)) false (stringFrom acc) b := by
  fun_induction stringFrom acc b with
  | case1 acc => exact .of_incomplete (by rw [stringFrom])
  | case2 acc rest =>
    exact .cons (fun _ => step_inside_quote) (stringFrom_quote acc) (follows_closeString acc rest)
      (Leads.cons fun _ => step_inside_quote)
  | case3 acc rest value after h _ _ ih =>
    refine follows_stringFrom_backslash fun value' after' h' => ?_
    obtain ⟨rfl, rfl⟩ := Reading.done.inj (h.symm.trans h')
    exact ih
  | case4 acc rest h =>
    refine follows_stringFrom_backslash fun value after h' => ?_
    cases h.symm.trans h'
  | case5 acc rest failure h =>
    refine follows_stringFrom_backslash fun value after h' => ?_
    cases h.symm.trans h'
  | case6 acc c rest quote backslash control =>
    exact .fail_behind fun rest' => by
      rw [stringFrom_of_ne acc quote backslash, if_pos control]
  | case7 acc c rest quote backslash control ih =>
    have hstep : ∀ pos, (inside depth pos).step c = (inside depth (pos + 1), false) :=
      fun _ => step_inside_of_ne quote backslash
    refine .cons hstep (fun rest' => ?_) ih (Leads.cons hstep)
    rw [stringFrom_of_ne acc quote backslash, if_neg control]

/-- **The walk leaves a string with the quote that ends it.** -/
theorem follows_string (b : Bytes) :
    Follows (inside depth) (Leads (inside depth) (outside depth)) false string b :=
  follows_stringFrom [] b

end Json

end ForwardIntake
