import ForwardIntake.Frame.Scanner
import ForwardIntake.Message.Decode
import ForwardIntake.Proofs.Frame.Brackets
import ForwardIntake.Proofs.Frame.Items

/-!
# What a scanner says about a buffer

A scanner goes on where its last scan stopped.  That makes no difference to what it says: however a
buffer has grown, the scanner answers what a fresh one would (`Scanner.scan_resume`,
`Scanner.InStep`).  So all that matters is `frameOf`:

* a frame once found is final (`frameOf_append_of_found`);
* a bound lies beyond the buffer (`lt_of_frameOf_eq_incomplete`), and every longer buffer is reached
  at least that far (`le_reach_frameOf_append`);
* separators before a message move its frame (`frameOf_append_separators`).
-/

namespace ForwardIntake

/-! ### Separators -/

namespace Message

variable {b more : Bytes}

/-- A buffer is its separators and its body. -/
theorem separators_append_body (b : Bytes) : separators b ++ body b = b :=
  List.takeWhile_append_dropWhile

/-- A body that has begun goes on with what follows. -/
theorem body_append (h : body b ≠ []) (more : Bytes) : body (b ++ more) = body b ++ more := by
  rw [body, List.dropWhile_append, if_neg (by rw [List.isEmpty_iff]; exact h)]
  rfl

theorem body_append_of_cons {first : UInt8} {rest : Bytes} (h : body b = first :: rest)
    (more : Bytes) : body (b ++ more) = first :: (rest ++ more) := by
  rw [body_append (by simp [h]), h, List.cons_append]

/-- The separators end where the body begins. -/
theorem separators_append (h : body b ≠ []) (more : Bytes) :
    separators (b ++ more) = separators b := by
  have hb := separators_append_body (b ++ more)
  rw [body_append h, ← List.append_assoc, List.append_left_inj] at hb
  exact List.append_cancel_right (hb.trans (separators_append_body b).symm)

theorem length_separators (b : Bytes) : (separators b).length = b.length - (body b).length := by
  have h := congrArg List.length (separators_append_body b)
  rw [List.length_append] at h
  omega

/-- Behind separators a buffer has the body that it has without them. -/
theorem body_append_of_body_eq_nil (h : body b = []) (more : Bytes) :
    body (b ++ more) = body more := by
  rw [body, List.dropWhile_append, if_pos (by rw [List.isEmpty_iff]; exact h)]
  rfl

/-- Separators are counted across two buffers. -/
theorem length_separators_append_of_body_eq_nil (h : body b = []) (more : Bytes) :
    (separators (b ++ more)).length = (separators more).length + b.length := by
  have hle := length_body_le more
  rw [length_separators, length_separators, body_append_of_body_eq_nil h, List.length_append]
  omega

theorem drop_length_separators (b : Bytes) : b.drop (separators b).length = body b := by
  conv => lhs; rhs; rw [← separators_append_body b]
  exact List.drop_left

end Message

namespace Frame

/-! ### Moving frames -/

/-- The frame of a message that begins `k` bytes further into a buffer. -/
def shift (k : Nat) : Frame → Frame
  | .complete length => .complete (length + k)
  | .incomplete needed => .incomplete (needed + k)
  | .invalid => .invalid

/-- Moving the buffer moves what the bracket walk finds. -/
private theorem BracketWalk.advance_shift (k size : Nat) (w : BracketWalk) (b : Bytes) :
    ((w.shift k).advance (size + k) b).1 = (w.advance size b).1.shift k := by
  induction b generalizing w with
  | nil => rw [advance, advance, Frame.shift, Nat.add_right_comm]
  | cons byte rest ih =>
    rw [advance, advance, step_shift]
    generalize w.step byte = stepped
    obtain ⟨next, closes⟩ := stepped
    cases closes with
    | true => rfl
    | false => exact ih next

/-- A walk over brackets reaches beyond its position. -/
private theorem BracketWalk.lt_reach_advance {size : Nat} {w : BracketWalk} {b : Bytes}
    (h : w.pos + b.length ≤ size) : w.pos < (w.advance size b).1.reach size := by
  induction b generalizing w with
  | nil =>
    rw [advance]
    exact Nat.lt_succ_of_le h
  | cons byte rest ih =>
    rw [List.length_cons] at h
    rw [advance]
    split
    · rename_i next hstep
      have := pos_of_step hstep
      simp only [reach]
      omega
    · rename_i next hstep
      have hpos := pos_of_step hstep
      have := ih (w := next) (by omega)
      omega

/-- Moving the buffer moves what the item walk finds. -/
private theorem ItemWalk.exact_shift (k size pos pending : Nat) (rest : Bytes) :
    exact (size + k) (pos + k) pending rest = (exact size pos pending rest).shift k := by
  fun_induction exact size pos pending rest with
  | case1 pos rest hlt => rw [exact_zero, if_pos (by omega)]; rfl
  | case2 pos rest hlt => rw [exact_zero, if_neg (by omega)]; rfl
  | case3 pos pending hpending =>
    obtain ⟨n, rfl⟩ := Nat.exists_eq_succ_of_ne_zero hpending
    rw [exact_nil, shift, Nat.add_right_comm]
  | case4 pos pending hpending marker tail bytes items hitem ih =>
    obtain ⟨n, rfl⟩ := Nat.exists_eq_succ_of_ne_zero hpending
    rw [exact_of_known hitem, Nat.add_right_comm]
    exact ih
  | case5 pos pending hpending marker tail length hitem =>
    obtain ⟨n, rfl⟩ := Nat.exists_eq_succ_of_ne_zero hpending
    rw [exact_cons, hitem, shift, Nat.add_right_comm]
  | case6 pos pending hpending marker tail hitem =>
    obtain ⟨n, rfl⟩ := Nat.exists_eq_succ_of_ne_zero hpending
    rw [exact_cons, hitem]
    rfl

end Frame

/-! ### Going on with a walk -/

namespace Walk

open ForwardIntake.Frame

variable {b more : Bytes}

/-- A walk that has found the frame keeps nothing else. -/
theorem advance_snd_of_found {w : Walk} (h : (w.advance b).1.isIncomplete = false) :
    (w.advance b).2 = .finished (w.advance b).1 := by
  cases w with
  | items w =>
    simp only [advance] at h ⊢
    rw [keep, h]
    rfl
  | brackets w =>
    simp only [advance] at h ⊢
    rw [keep, h]
    rfl
  | finished frame => rfl

/-- The item walk resumes where it stopped. -/
private theorem advance_advance_items (w : ItemWalk) (fits : (b ++ more).length ≤ wordMax) :
    ((items w).advance b).2.advance (b ++ more) = (items w).advance (b ++ more) := by
  have hbroken := @ItemWalk.advance_append_of_incomplete b more w.pos w.pending
  have hfound := @ItemWalk.advance_append_of_found b more w.pos w.pending fits
  simp only [advance]
  generalize ItemWalk.advance b.length w.pos w.pending (b.drop w.pos) = walked at hbroken hfound
  obtain ⟨frame, w'⟩ := walked
  cases frame with
  | incomplete needed =>
    simp only [keep, isIncomplete_incomplete, if_true]
    rw [hbroken fits rfl]
  | complete length =>
    simp only [keep, isIncomplete_complete, Bool.false_eq_true, if_false, hfound rfl]
  | invalid =>
    simp only [keep, isIncomplete_invalid, Bool.false_eq_true, if_false, hfound rfl]

/-- The bracket walk resumes where it stopped. -/
private theorem advance_advance_brackets {w : BracketWalk} (hpos : w.pos ≤ b.length) :
    ((brackets w).advance b).2.advance (b ++ more) = (brackets w).advance (b ++ more) := by
  have hdrop : (b ++ more).drop w.pos = b.drop w.pos ++ more :=
    List.drop_append_of_le_length hpos
  cases hover : w.over? (b.drop w.pos) with
  | some w' =>
    have hend : w'.pos = b.length := by
      rw [BracketWalk.pos_of_over? hover, List.length_drop]
      omega
    simp [advance, BracketWalk.advance_of_over? _ hover, keep, hdrop,
      BracketWalk.advance_append_of_over? _ _ hover, hend]
  | none =>
    obtain ⟨length, w', -, -, hadvance⟩ := BracketWalk.advance_append_of_over?_eq_none hover
    have halone := hadvance b.length []
    rw [List.append_nil] at halone
    simp [advance, halone, hdrop, hadvance, keep]

/-- The walk resumes, whichever codec the first byte tells. -/
private theorem advance_advance_start {pos : Nat} (first : UInt8) (hpos : pos ≤ b.length)
    (fits : (b ++ more).length ≤ wordMax) :
    ((start pos first).advance b).2.advance (b ++ more) =
      (start pos first).advance (b ++ more) := by
  rw [start]
  cases Codec.sniff first with
  | messagePack => exact advance_advance_items _ fits
  | json => exact advance_advance_brackets hpos

end Walk

namespace Scanner

open ForwardIntake.Frame Message

variable {b more : Bytes}

/-- Separators alone are a frame, and the scanner stays fresh. -/
private theorem scan_fresh_of_nil (h : body b = []) :
    fresh.scan b = (if b = [] then .incomplete 1 else .complete b.length, fresh) := by
  rw [body] at h
  simp only [scan, fresh, h]

/-- Any other buffer starts a walk at its first byte that is no separator. -/
theorem scan_fresh_of_cons {first : UInt8} {rest : Bytes} (h : body b = first :: rest) :
    fresh.scan b = (((Walk.start (separators b).length first).advance b).1,
      ⟨some ((Walk.start (separators b).length first).advance b).2⟩) := by
  have hlength : b.length - (rest.length + 1) = (separators b).length := by
    rw [length_separators, h, List.length_cons]
  rw [body] at h
  simp only [scan, fresh, h, hlength]

/-- **A scan that goes on** where the last one stopped says what a fresh one says, and leaves the
scanner as a fresh one would. -/
theorem scan_resume (fits : (b ++ more).length ≤ wordMax) :
    (fresh.scan b).2.scan (b ++ more) = fresh.scan (b ++ more) := by
  cases hbody : body b with
  | nil => rw [scan_fresh_of_nil hbody]
  | cons first rest =>
    have hne : body b ≠ [] := by simp [hbody]
    have hmore := body_append_of_cons hbody more
    have hpos : (separators b).length ≤ b.length := by rw [length_separators]; omega
    rw [scan_fresh_of_cons hbody, scan_fresh_of_cons hmore, separators_append hne]
    simp only [scan, Walk.advance_advance_start first hpos fits]

/-- However the buffer goes on, the scanner says of it what a fresh one says. -/
def InStep (s : Scanner) (b : Bytes) : Prop :=
  ∀ more, (b ++ more).length < 2 ^ 63 → s.scan (b ++ more) = fresh.scan (b ++ more)

/-- A fresh scanner is in step with every buffer. -/
theorem inStep_fresh (b : Bytes) : fresh.InStep b :=
  fun _ _ => rfl

/-- A scanner stays in step when more bytes follow. -/
theorem InStep.append {s : Scanner} (h : s.InStep b) (more : Bytes) : s.InStep (b ++ more) := by
  intro rest small
  rw [List.append_assoc] at small ⊢
  exact h (more ++ rest) small

/-- **A scanner in step** finds what a fresh one finds. -/
theorem InStep.scan_eq {s : Scanner} (h : s.InStep b) (small : b.length < 2 ^ 63) :
    s.scan b = fresh.scan b := by
  have := h [] (by rwa [List.append_nil])
  rwa [List.append_nil] at this

/-- A scan leaves the scanner in step. -/
theorem InStep.scan {s : Scanner} (h : s.InStep b) (small : b.length < 2 ^ 63) :
    (s.scan b).2.InStep b := by
  intro more hmore
  rw [h.scan_eq small, scan_resume (le_wordMax_of_lt hmore)]

/-! ### The frame of a buffer -/

/-- The frame of separators is all of them. -/
theorem frameOf_of_nil (h : body b = []) :
    frameOf b = if b = [] then .incomplete 1 else .complete b.length := by
  rw [frameOf, scan_fresh_of_nil h]

/-- In MessagePack the frame is what exact arithmetic finds. -/
theorem frameOf_of_messagePack {first : UInt8} {rest : Bytes} (h : body b = first :: rest)
    (codec : Codec.sniff first = .messagePack) (small : b.length < 2 ^ 63) :
    frameOf b = ItemWalk.exact b.length (separators b).length 1 (body b) := by
  have hpos : (separators b).length ≤ b.length := by rw [length_separators]; omega
  have hexact : (ItemWalk.advance b.length (separators b).length 1 (body b)).1 =
      ItemWalk.exact b.length (separators b).length 1 (body b) := by
    refine ItemWalk.advance_eq_exact small ?_ (by omega) (.inl rfl)
    rw [← drop_length_separators b]
    exact ItemWalk.placed_drop b _
  rw [frameOf, scan_fresh_of_cons h, Walk.start, codec, ← hexact, ← drop_length_separators b]
  rfl

/-- In JSON the frame is what the bracket walk finds. -/
theorem frameOf_of_json {first : UInt8} {rest : Bytes} (h : body b = first :: rest)
    (codec : Codec.sniff first = .json) :
    frameOf b =
      ((BracketWalk.outside 0 (separators b).length).advance b.length (body b)).1 := by
  rw [frameOf, scan_fresh_of_cons h, Walk.start, codec, ← drop_length_separators b]
  rfl

/-- A walk over the whole body ends at the end of the buffer. -/
private theorem pos_of_over?_body {w : BracketWalk}
    (h : (BracketWalk.outside 0 (separators b).length).over? (body b) = some w) :
    w.pos = b.length := by
  have hb := congrArg List.length (separators_append_body b)
  rw [BracketWalk.pos_of_over? h, ← hb, List.length_append]
  rfl

/-- A walk over brackets goes over the whole buffer, or it finds the end of the message in it. -/
theorem frameOf_json_cases {first : UInt8} {rest : Bytes} (h : body b = first :: rest)
    (codec : Codec.sniff first = .json) :
    (∃ w, (BracketWalk.outside 0 (separators b).length).over? (body b) = some w ∧
        frameOf b = .incomplete (b.length + 1)) ∨
      ∃ length, length ≤ b.length ∧ frameOf b = .complete length := by
  rw [frameOf_of_json h codec]
  cases hover : (BracketWalk.outside 0 (separators b).length).over? (body b) with
  | some w => exact .inl ⟨w, rfl, by rw [BracketWalk.advance_of_over? _ hover]⟩
  | none =>
    obtain ⟨length, w, -, hle, hadvance⟩ := BracketWalk.advance_append_of_over?_eq_none hover
    have halone := hadvance b.length []
    have hb := congrArg List.length (separators_append_body b)
    rw [List.append_nil] at halone
    rw [List.length_append] at hb
    rw [halone]
    exact .inr ⟨length, Nat.le_trans hle (Nat.le_of_eq hb), rfl⟩

/-- **A frame once found is final.**  Only separators without a message are not. -/
theorem frameOf_append_of_found (fits : (b ++ more).length ≤ wordMax) (hbody : body b ≠ [])
    (h : (frameOf b).isIncomplete = false) : frameOf (b ++ more) = frameOf b := by
  obtain ⟨first, rest, hcons⟩ := List.exists_cons_of_ne_nil hbody
  rw [frameOf, scan_fresh_of_cons hcons] at h
  rw [frameOf, ← scan_resume fits, frameOf, scan_fresh_of_cons hcons]
  simp only [scan, Walk.advance_snd_of_found h]
  rfl

/-- A bound lies beyond the buffer. -/
theorem lt_of_frameOf_eq_incomplete {needed : Nat} (small : b.length < 2 ^ 63)
    (h : frameOf b = .incomplete needed) : b.length < needed := by
  cases hbody : body b with
  | nil =>
    rw [frameOf_of_nil hbody] at h
    split at h
    · rename_i hb
      cases h
      rw [hb]
      exact Nat.one_pos
    · cases h
  | cons first rest =>
    cases codec : Codec.sniff first with
    | messagePack =>
      rw [frameOf_of_messagePack hbody codec small, ← drop_length_separators b] at h
      exact ItemWalk.lt_of_exact_eq_incomplete (ItemWalk.placed_drop b _) h
    | json =>
      obtain ⟨w, -, hframe⟩ | ⟨length, -, hframe⟩ := frameOf_json_cases hbody codec
      · rw [hframe] at h
        cases h
        exact Nat.lt_succ_self _
      · rw [hframe] at h
        cases h

/-- The frame of a message reaches into the message. -/
private theorem length_separators_lt_reach (small : b.length < 2 ^ 63) (hbody : body b ≠ []) :
    (separators b).length < (frameOf b).reach b.length := by
  obtain ⟨first, rest, hcons⟩ := List.exists_cons_of_ne_nil hbody
  cases codec : Codec.sniff first with
  | messagePack =>
    rw [frameOf_of_messagePack hcons codec small, ← drop_length_separators b]
    exact (ItemWalk.le_reach_exact (ItemWalk.placed_drop b _)).2 Nat.one_pos
  | json =>
    rw [frameOf_of_json hcons codec]
    refine BracketWalk.lt_reach_advance (w := .outside 0 (separators b).length) ?_
    have := congrArg List.length (separators_append_body b)
    rw [List.length_append] at this
    exact Nat.le_of_eq this

/-- **Bounds are sound.**  A buffer that must grow to `needed` bytes is reached at least that far
once it has grown. -/
theorem le_reach_frameOf_append {needed : Nat} (small : (b ++ more).length < 2 ^ 63)
    (h : frameOf b = .incomplete needed) :
    needed ≤ (frameOf (b ++ more)).reach (b ++ more).length := by
  have hb : b.length < 2 ^ 63 := by rw [List.length_append] at small; omega
  cases hbody : body b with
  | nil =>
    rw [frameOf_of_nil hbody] at h
    split at h
    · rename_i hnil
      cases h
      subst hnil
      rw [List.nil_append] at small ⊢
      cases hmore : body more with
      | nil =>
        rw [frameOf_of_nil hmore]
        split
        · exact Nat.le_refl _
        · exact List.length_pos_iff.2 ‹_›
      | cons first rest =>
        have hne : body more ≠ [] := by simp [hmore]
        exact Nat.succ_le_of_lt (Nat.lt_of_le_of_lt (Nat.zero_le _)
          (length_separators_lt_reach small hne))
    · cases h
  | cons first rest =>
    have hne : body b ≠ [] := by simp [hbody]
    have hmore := body_append_of_cons hbody more
    cases codec : Codec.sniff first with
    | messagePack =>
      rw [frameOf_of_messagePack hbody codec hb, ← drop_length_separators b] at h
      rw [frameOf_of_messagePack hmore codec small, ← drop_length_separators (b ++ more),
        separators_append hne]
      exact ItemWalk.le_reach_exact_append more h
    | json =>
      obtain ⟨w, hover, hframe⟩ | ⟨length, -, hframe⟩ := frameOf_json_cases hbody codec
      · have hpos := pos_of_over?_body hover
        rw [hframe] at h
        cases h
        rw [frameOf_of_json hmore codec, separators_append hne, body_append hne,
          BracketWalk.advance_append_of_over? _ _ hover, ← hpos]
        refine BracketWalk.lt_reach_advance (Nat.le_of_eq ?_)
        rw [List.length_append, hpos]
      · rw [hframe] at h
        cases h

/-- A frame that is found lies inside the buffer. -/
theorem le_of_frameOf_eq_complete {length : Nat} (small : b.length < 2 ^ 63)
    (h : frameOf b = .complete length) : length ≤ b.length := by
  cases hbody : body b with
  | nil =>
    rw [frameOf_of_nil hbody] at h
    split at h
    · cases h
    · cases h
      exact Nat.le_refl _
  | cons first rest =>
    cases codec : Codec.sniff first with
    | messagePack =>
      rw [frameOf_of_messagePack hbody codec small] at h
      exact ItemWalk.le_of_exact_eq_complete h
    | json =>
      obtain ⟨w, -, hframe⟩ | ⟨n, hle, hframe⟩ := frameOf_json_cases hbody codec
      · rw [hframe] at h
        cases h
      · rw [hframe] at h
        cases h
        exact hle

/-- **Separators before a message** move its frame. -/
theorem frameOf_append_separators {blank : Bytes} (small : (blank ++ b).length < 2 ^ 63)
    (hblank : body blank = []) (hbody : body b ≠ []) :
    frameOf (blank ++ b) = (frameOf b).shift blank.length := by
  obtain ⟨first, rest, hcons⟩ := List.exists_cons_of_ne_nil hbody
  have hsame : body (blank ++ b) = body b := body_append_of_body_eq_nil hblank b
  have hskip := length_separators_append_of_body_eq_nil hblank b
  have hlength : (blank ++ b).length = b.length + blank.length := by
    rw [List.length_append, Nat.add_comm]
  have hb : b.length < 2 ^ 63 := by omega
  cases codec : Codec.sniff first with
  | messagePack =>
    rw [frameOf_of_messagePack (hsame.trans hcons) codec small,
      frameOf_of_messagePack hcons codec hb, hsame, hskip, hlength, ItemWalk.exact_shift]
  | json =>
    rw [frameOf_of_json (hsame.trans hcons) codec, frameOf_of_json hcons codec, hsame, hskip,
      hlength]
    exact BracketWalk.advance_shift blank.length b.length (.outside 0 (separators b).length)
      (body b)

end Scanner

end ForwardIntake
