import ForwardIntake.Proofs.Json.Unfinished

/-!
# JSON with more bytes behind it

A fault in JSON text is found at a byte that cannot be right whatever follows it, and then it is
found in every longer text as well.  There is one exception.  The end of the bytes also ends a
number, and a number that is out of range there need not be so once its exponent has arrived
(`Overruns`).

`Settles f b` says that a way of reading finds no other faults in the bytes `b`.  As with `Follows`
and `Halts`, one goes through the functions of the reader, up to `settles_reader`.  Inside of a
number the exception can be told from the fault alone (`Judges`).
-/

namespace ForwardIntake

namespace Json

open ForwardIntake.Frame ForwardIntake.Frame.BracketWalk

variable {α β : Type} {depth : Nat} {s : Nat → BracketWalk} {b front rest : Bytes}

/-! ### Numbers -/

/-- A fault in a number is found whatever follows, or the bytes end there and the number is out of
range. -/
def Judges (f : Bytes → Reading Failure Value) (b : Bytes) : Prop :=
  ∀ failure, f b = .failed failure →
    (b ≠ [] ∧ ∀ more, f (b ++ more) = .failed (failure.extend more)) ∨
      failure = ⟨.numberOutOfRange, []⟩

namespace Judges

variable {f g : Bytes → Reading Failure Value}

/-- Where bytes are missing no fault was found. -/
theorem of_incomplete (h : f b = .incomplete) : Judges f b := by
  intro failure hfailed
  rw [h] at hfailed
  cases hfailed

/-- Nothing needs to be read. -/
theorem pure (v : Value) (b : Bytes) : Judges (.done v) b := by
  intro failure hfailed
  cases hfailed

/-- A number out of range is so for good, unless the bytes end there. -/
private theorem outOfRange (b : Bytes) : Judges (fail .numberOutOfRange) b := by
  intro failure hfailed
  cases hfailed
  cases b with
  | nil => exact .inr rfl
  | cons c rest => exact .inl ⟨List.cons_ne_nil _ _, fun _ => rfl⟩

/-- At the end of the bytes two ways of reading may do the same. -/
theorem nil (heq : f [] = g []) (hg : Judges g []) : Judges f [] := by
  intro failure hfailed
  refine (hg failure (heq ▸ hfailed)).imp_left ?_
  rintro ⟨hne, -⟩
  exact absurd rfl hne

/-- A fault that is found in the first byte. -/
theorem fail_behind {c : UInt8} {fault : Fault} (heq : ∀ rest', f (c :: rest') = fail fault rest') :
    Judges f (c :: rest) := by
  intro failure hfailed
  rw [heq] at hfailed
  cases hfailed
  exact .inl ⟨List.cons_ne_nil _ _, fun more => heq (rest ++ more)⟩

/-- A choice that does not depend on the bytes. -/
theorem ite {p : Prop} [Decidable p] (hf : p → Judges f b) (hg : ¬p → Judges g b) :
    Judges (fun b => if p then f b else g b) b := by
  by_cases h : p
  · simpa only [if_pos h] using hf h
  · simpa only [if_neg h] using hg h

/-- Some bytes are passed over and `g` goes on behind them, having seen the next byte at most. -/
theorem after (heq : ∀ rest', rest'.head? = rest.head? → f (front ++ rest') = g rest')
    (hg : Judges g rest) : Judges f (front ++ rest) := by
  intro failure hfailed
  rw [heq rest rfl] at hfailed
  refine (hg failure hfailed).imp_left ?_
  rintro ⟨hne, hsame⟩
  refine ⟨List.append_ne_nil_of_right_ne_nil _ hne, fun more => ?_⟩
  rw [List.append_assoc, heq _ (List.head?_append_of_ne_nil _ hne), hsame]

/-- One byte is passed over and `g` goes on behind it. -/
theorem cons {c : UInt8} (heq : ∀ rest', f (c :: rest') = g rest') (hg : Judges g rest) :
    Judges f (c :: rest) := by
  have hafter : Judges f ([c] ++ rest) := after (fun rest' _ => heq rest') hg
  exact hafter

/-- Two ways of reading that agree on all bytes beginning with `c`. -/
theorem of_head {c : UInt8} (heq : ∀ rest', f (c :: rest') = g (c :: rest'))
    (hg : Judges g (c :: rest)) : Judges f (c :: rest) := by
  have hafter : Judges f ([] ++ c :: rest) := by
    refine after (fun rest' hhead => ?_) hg
    obtain ⟨tail, rfl⟩ := List.head?_eq_some_iff.1 hhead
    exact heq tail
  exact hafter

/-- Digits are passed over and `g` goes on behind the last of them. -/
theorem digits (heq : ∀ rest, rest.head? = (b.dropWhile isDigit).head? →
      f (b.takeWhile isDigit ++ rest) = g rest)
    (hg : Judges g (b.dropWhile isDigit)) : Judges f b := by
  have hafter := after heq hg
  rwa [List.takeWhile_append_dropWhile] at hafter

end Judges

section Numbers

variable (negative : Bool) (significand : Nat) (shift : Int)

/-- A float is made of what was read before it, and may be out of range. -/
private theorem judges_floatValue (e : Int) : Judges (floatValue negative significand e) b := by
  obtain ⟨x, hdone⟩ | hfail := floatValue_eq negative significand e
  · rw [hdone]
    exact .pure _ b
  · rw [hfail]
    exact .outOfRange b

/-- A number with an exponent may be out of range, and nothing else is wrong with it. -/
private theorem judges_withExponent (down : Bool) (e? : Option Nat) :
    Judges (withExponent negative significand shift down e?) b := by
  cases e? with
  | some e => exact judges_floatValue negative significand _
  | none =>
    refine .ite (fun _ => .outOfRange b) fun _ => ?_
    exact .digits (fun rest hhead => by rw [(digits_append hhead).2]) (.pure _ _)

/-- An exponent has to have a digit behind its sign. -/
private theorem judges_unsignedExponent (down : Bool) :
    Judges (unsignedExponent negative significand shift down) b := by
  cases b with
  | nil => exact .of_incomplete rfl
  | cons c rest =>
    by_cases hdigit : isDigit c = true
    · obtain ⟨front, hrest, -, hsame⟩ := exists_exponentDigits (digitValue c) rest
      generalize exponentDigits (digitValue c) rest = read at hrest hsame
      have hexponent : Judges (withExponent negative significand shift down read.1) read.2 :=
        judges_withExponent negative significand shift down read.1
      rw [hrest, ← List.cons_append]
      refine .after (fun rest' hhead => ?_) hexponent
      rw [List.cons_append, unsignedExponent, if_pos hdigit, hsame rest' hhead]
    · exact .fail_behind fun rest' => by rw [unsignedExponent, if_neg hdigit]

/-- The sign of an exponent may be missing. -/
private theorem judges_exponentPart : Judges (exponentPart negative significand shift) b := by
  cases b with
  | nil => exact .of_incomplete rfl
  | cons c rest =>
    by_cases hplus : c = 0x2B
    · subst hplus
      exact .cons (fun rest' => exponentPart_eq negative significand shift (0x2B :: rest'))
        (judges_unsignedExponent negative significand shift false)
    by_cases hminus : c = 0x2D
    · subst hminus
      exact .cons (fun rest' => exponentPart_eq negative significand shift (0x2D :: rest'))
        (judges_unsignedExponent negative significand shift true)
    refine .of_head (fun rest' => ?_) (judges_unsignedExponent negative significand shift false)
    rw [exponentPart_eq, exponentSign, if_neg hplus, if_neg hminus]

/-- Behind a fraction there is an exponent, or the number is over. -/
private theorem judges_afterFraction : Judges (afterFraction negative significand shift) b := by
  cases b with
  | nil =>
    exact .nil (g := floatValue negative significand shift) rfl
      (judges_floatValue negative significand shift)
  | cons c rest =>
    by_cases hexponent : c = 0x65 ∨ c = 0x45
    · exact .cons (fun rest' => by rw [afterFraction, if_pos hexponent])
        (judges_exponentPart negative significand shift)
    · exact .of_head (fun rest' => by rw [afterFraction, if_neg hexponent])
        (judges_floatValue negative significand shift)

/-- A fraction has to have a digit. -/
private theorem judges_fractionPart (shift : Nat) :
    Judges (fractionPart negative significand shift) b := by
  cases b with
  | nil => exact .of_incomplete rfl
  | cons c tail =>
    by_cases hdigit : isDigit c = true
    · exact .digits (fun rest => fractionPart_append negative significand shift hdigit)
        (judges_afterFraction negative _ _)
    · exact .fail_behind (fractionPart_of_not_digit negative significand shift hdigit)

/-- An integer that does not fit is a float, and may be out of range. -/
private theorem judges_integerPart (dropped : Nat) :
    Judges (integerPart negative significand dropped) b := by
  refine .ite (fun _ => .pure _ b) fun _ => ?_
  exact judges_floatValue negative significand dropped

/-- Behind the integer part there is a fraction or an exponent, or the number is over. -/
private theorem judges_afterInteger (dropped : Nat) :
    Judges (afterInteger negative significand dropped) b := by
  cases b with
  | nil =>
    exact .nil (g := integerPart negative significand dropped) rfl
      (judges_integerPart negative significand dropped)
  | cons c rest =>
    by_cases hpoint : c = 0x2E
    · exact .cons (fun rest' => by rw [afterInteger, if_pos hpoint])
        (judges_fractionPart negative significand dropped)
    by_cases hexponent : c = 0x65 ∨ c = 0x45
    · exact .cons (fun rest' => by rw [afterInteger, if_neg hpoint, if_pos hexponent])
        (judges_exponentPart negative significand dropped)
    · exact .of_head (fun rest' => by rw [afterInteger, if_neg hpoint, if_neg hexponent])
        (judges_integerPart negative significand dropped)

/-- No digit may follow a leading zero. -/
private theorem judges_afterZero : Judges (afterZero negative) b := by
  cases b with
  | nil => exact .nil (g := afterInteger negative 0 0) rfl (judges_afterInteger negative 0 0)
  | cons d unread =>
    by_cases hdigit : isDigit d = true
    · exact .fail_behind fun rest' => by rw [afterZero, if_pos hdigit]
    · exact .of_head (fun rest' => by rw [afterZero, if_neg hdigit])
        (judges_afterInteger negative 0 0)

/-- A fault in a number is found whatever follows, or the bytes end there. -/
private theorem judges_number : Judges (number negative) b := by
  cases b with
  | nil => exact .of_incomplete rfl
  | cons c rest =>
    by_cases hzero : c = 0x30
    · subst hzero
      exact .cons (number_zero negative) (judges_afterZero negative)
    by_cases hdigit : isDigit c = true
    · exact .cons (number_digit negative hzero hdigit)
        (.digits (fun rest' => moreDigits_append negative _) (judges_afterInteger negative _ _))
    · exact .fail_behind (number_of_not_digit negative hdigit)

end Numbers

/-! ### Settled faults -/

/-- The bytes end with the digits `token` of a number that is out of range, and with more bytes
behind them the way of reading goes on in that number. -/
structure Overruns (negative : Bool) (token : Bytes) (f : Bytes → Reading Failure α) (b : Bytes) :
    Prop where
  isSuffix : token <:+ b
  outOfRange : number negative token = fail .numberOutOfRange []
  reads : ∃ k : Value → Bytes → Reading Failure α,
    ∀ more, f (b ++ more) = (number negative (token ++ more)).bind k

/-- A fault is found whatever follows, or the bytes end with a number that is out of range. -/
def Settles (f : Bytes → Reading Failure α) (b : Bytes) : Prop :=
  ∀ failure, f b = .failed failure →
    (∀ more, f (b ++ more) = .failed (failure.extend more)) ∨
      ∃ negative token, Overruns negative token f b

namespace Overruns

variable {negative : Bool} {token : Bytes} {f g : Bytes → Reading Failure α}

theorem behind (heq : ∀ more, f (front ++ (rest ++ more)) = g (rest ++ more))
    (h : Overruns negative token g rest) : Overruns negative token f (front ++ rest) := by
  obtain ⟨k, hreads⟩ := h.reads
  refine ⟨h.isSuffix.trans (List.suffix_append front rest), h.outOfRange, k, fun more => ?_⟩
  rw [List.append_assoc, heq, hreads]

/-- What is done behind the number does not matter. -/
theorem bind {k : α → Bytes → Reading Failure β} (h : Overruns negative token f b) :
    Overruns negative token (fun b => (f b).bind k) b := by
  obtain ⟨k', hreads⟩ := h.reads
  refine ⟨h.isSuffix, h.outOfRange, fun v rest => (k' v rest).bind k, fun more => ?_⟩
  rw [hreads, Reading.bind_assoc]

/-- The number is what is wrong with the bytes. -/
theorem eq_failed (h : Overruns negative token f b) : f b = .failed ⟨.numberOutOfRange, []⟩ := by
  obtain ⟨k, hreads⟩ := h.reads
  have hb := hreads []
  rw [List.append_nil, List.append_nil, h.outOfRange] at hb
  exact hb

/-- Where the bytes go on with a value, the number goes on with one. -/
theorem exists_number {v : α} {more after : Bytes} (h : Overruns negative token f b)
    (hdone : f (b ++ more) = .done v after) :
    ∃ w rest, number negative (token ++ more) = .done w rest := by
  obtain ⟨k, hreads⟩ := h.reads
  rw [hreads, Reading.bind_eq_done_iff] at hdone
  obtain ⟨w, rest, hnumber, -⟩ := hdone
  exact ⟨w, rest, hnumber⟩

end Overruns

/-- A value that was read is read with more bytes behind it as well. -/
private theorem Follows.done_append {path : Bytes → Prop} {peeks : Bool}
    {f : Bytes → Reading Failure α} (h : Follows s path peeks f b) {v : α}
    (hdone : f b = .done v rest) (hnext : peeks = true → rest ≠ []) (more : Bytes) :
    f (b ++ more) = .done v (rest ++ more) := by
  obtain ⟨front, rfl, -, hsame⟩ := h.done hdone
  rw [List.append_assoc]
  exact hsame _ fun hpeeks => List.head?_append_of_ne_nil _ (hnext hpeeks)

namespace Settles

variable {f g : Bytes → Reading Failure α}

/-- Where no fault is found there is none to settle. -/
theorem of_ne (h : ∀ failure, f b ≠ .failed failure) : Settles f b :=
  fun failure hfailed => absurd hfailed (h failure)

/-- Where bytes are missing no fault was found. -/
theorem of_incomplete (h : f b = .incomplete) : Settles f b :=
  of_ne fun failure hfailed => by rw [h] at hfailed; cases hfailed

/-- A fault that stays whatever follows. -/
theorem of_failed {failure : Failure} (h : ∀ more, f (b ++ more) = .failed (failure.extend more)) :
    Settles f b := by
  intro failure' hfailed
  have hb := h []
  rw [List.append_nil, hfailed] at hb
  cases hb
  refine .inl fun more => ?_
  rw [h, Failure.extend_extend, List.nil_append]

/-- Nothing needs to be read. -/
theorem pure (v : α) (b : Bytes) : Settles (.done v) b :=
  of_ne fun _ h => by cases h

/-- A fault that is found without reading anything. -/
theorem fail (fault : Fault) (b : Bytes) :
    Settles (Json.fail fault : Bytes → Reading Failure α) b := by
  intro failure hfailed
  cases hfailed
  exact .inl fun _ => rfl

/-- A fault that is found in the first byte. -/
theorem fail_behind {c : UInt8} {fault : Fault}
    (heq : ∀ rest', f (c :: rest') = Json.fail fault rest') : Settles f (c :: rest) := by
  intro failure hfailed
  rw [heq] at hfailed
  cases hfailed
  exact .inl fun more => heq (rest ++ more)

/-- A choice that does not depend on the bytes. -/
theorem ite {p : Prop} [Decidable p] (hf : p → Settles f b) (hg : ¬p → Settles g b) :
    Settles (fun b => if p then f b else g b) b := by
  by_cases h : p
  · simpa only [if_pos h] using hf h
  · simpa only [if_neg h] using hg h

/-- Some bytes are passed over and `g` goes on behind them. -/
theorem behind (heq : ∀ more, f (front ++ (rest ++ more)) = g (rest ++ more))
    (hg : Settles g rest) : Settles f (front ++ rest) := by
  intro failure hfailed
  have hrest := heq []
  rw [List.append_nil] at hrest
  rw [hrest] at hfailed
  refine (hg failure hfailed).imp (fun hsame more => ?_) ?_
  · rw [List.append_assoc, heq, hsame]
  · rintro ⟨negative, token, hoverruns⟩
    exact ⟨negative, token, hoverruns.behind heq⟩

/-- One byte is passed over and `g` goes on behind it. -/
theorem cons {c : UInt8} (heq : ∀ rest', f (c :: rest') = g rest') (hg : Settles g rest) :
    Settles f (c :: rest) := by
  have hbehind : Settles f ([c] ++ rest) := behind (fun more => heq (rest ++ more)) hg
  exact hbehind

/-- Two ways of reading that agree on all bytes beginning with `c`. -/
theorem of_head {c : UInt8} (heq : ∀ rest', f (c :: rest') = g (c :: rest'))
    (hg : Settles g (c :: rest)) : Settles f (c :: rest) := by
  have hbehind : Settles f ([] ++ c :: rest) := behind (fun more => heq (rest ++ more)) hg
  exact hbehind

/-- Space before what is read. -/
theorem space (hspace : ∀ b, f (skipSpace b) = f b) (h : Settles f (skipSpace b)) :
    Settles f b := by
  have hpass : ∀ rest', f (b.takeWhile isSpace ++ rest') = f rest' := by
    intro rest'
    rw [← hspace, skipSpace_append_of_space fun _ => List.mem_takeWhile_imp, hspace]
  have hbehind := behind (fun more => hpass (skipSpace b ++ more)) h
  rwa [takeWhile_append_skipSpace] at hbehind

/-- One way of reading goes on where another one has stopped.  If the first one peeks and finds
nothing behind, then the second one has to find nothing wrong there. -/
theorem bind {k : α → Bytes → Reading Failure β} {path : Bytes → Prop} {peeks : Bool}
    (h : Settles f b) (hf : Follows s path peeks f b)
    (hk : ∀ v rest, f b = .done v rest → Settles (k v) rest)
    (hend : peeks = true → ∀ v failure, k v [] ≠ .failed failure) :
    Settles (fun b => (f b).bind k) b := by
  intro failure hfailed
  rcases Reading.bind_eq_failed_iff.1 hfailed with hv | ⟨v, rest, hv, hrest⟩
  · refine (h failure hv).imp (fun hsame more => ?_) ?_
    · simp only [hsame, Reading.bind_failed]
    · rintro ⟨negative, token, hoverruns⟩
      exact ⟨negative, token, hoverruns.bind⟩
  · have hnext : peeks = true → rest ≠ [] := by
      rintro hpeeks rfl
      exact hend hpeeks v failure hrest
    have hmore := hf.done_append hv hnext
    refine (hk v rest hv failure hrest).imp (fun hsame more => ?_) ?_
    · simp only [hmore, Reading.bind_done, hsame]
    · rintro ⟨negative, token, hoverruns⟩
      obtain ⟨front, rfl, -, -⟩ := hf.done hv
      refine ⟨negative, token, hoverruns.behind fun more => ?_⟩
      rw [← List.append_assoc, hmore, Reading.bind_done]

/-- What is done with the value does not matter. -/
theorem map {k : α → β} (h : Settles f b) : Settles (fun b => (f b).map k) b := by
  intro failure hfailed
  refine (h failure (Reading.map_eq_failed_iff.1 hfailed)).imp (fun hsame more => ?_) ?_
  · simp only [hsame, Reading.map_failed]
  · rintro ⟨negative, token, hoverruns⟩
    exact ⟨negative, token, hoverruns.bind⟩

end Settles

/-- A number that is out of range may be a different one when more of its bytes arrive. -/
private theorem settles_number (negative : Bool) (b : Bytes) : Settles (number negative) b := by
  intro failure hfailed
  refine (judges_number negative failure hfailed).imp And.right ?_
  rintro rfl
  refine ⟨negative, b, List.suffix_rfl, hfailed, .done, fun more => ?_⟩
  cases number negative (b ++ more) <;> rfl

/-! ### Literals and strings -/

/-- The letters of a literal are compared one by one. -/
private theorem settles_literal (v : Value) (letters b : Bytes) :
    Settles (literal v letters) b := by
  induction letters generalizing b with
  | nil => exact .pure v b
  | cons letter letters ih =>
    cases b with
    | nil => exact .of_incomplete rfl
    | cons c rest =>
      by_cases hc : c = letter
      · exact .cons (fun rest' => by rw [literal, if_pos hc]) (ih rest)
      · exact .fail_behind fun rest' => by rw [literal, if_neg hc]

/-- Four digits that are not hexadecimal stay so. -/
private theorem settles_hexWord (b : Bytes) : Settles hexWord b :=
  fun _ hfailed => .inl (hexWord_append_of_failed hfailed)

/-- So does a byte that cannot begin the second half of a surrogate pair. -/
private theorem settles_pairByte (expected : UInt8) (b : Bytes) :
    Settles (pairByte expected) b := by
  cases b with
  | nil => exact .of_incomplete rfl
  | cons c rest =>
    by_cases hc : c = expected
    · exact .cons (fun rest' => by rw [pairByte, if_pos hc]) (.pure () rest)
    · exact .fail_behind fun rest' => by rw [pairByte, if_neg hc]

/-- The second half of a surrogate pair has to be one. -/
private theorem settles_secondWord (n : Nat) (b : Bytes) : Settles (secondWord n) b := by
  refine .bind (settles_hexWord b) (@follows_hexWord 0 b) (fun m rest _ => ?_) nofun
  exact .ite (fun _ => .fail _ rest) fun _ => .pure _ rest

/-- Behind the first half of a pair the escape of the second one has to come. -/
private theorem settles_secondEscape (n : Nat) (b : Bytes) : Settles (secondEscape n) b := by
  have hbackslash := fun pos => @step_inside_backslash 0 pos
  have hletter := fun pos => @step_behind 0 pos 0x75
  refine .bind (settles_pairByte _ b) (follows_pairByte hbackslash b) (fun _ rest _ => ?_) nofun
  refine .bind (settles_pairByte _ rest) (follows_pairByte hletter rest) (fun _ rest _ => ?_) nofun
  exact settles_secondWord n rest

/-- The digits of an escape stand for a character, or for half of a pair. -/
private theorem settles_behindDigits (n : Nat) (b : Bytes) : Settles (behindDigits n) b :=
  .ite (fun _ => .fail _ b) fun _ => .ite (fun _ => .pure _ b) fun _ => settles_secondEscape n b

/-- An escape is settled behind its backslash. -/
private theorem settles_escape (b : Bytes) : Settles escape b := by
  cases b with
  | nil => exact .of_incomplete rfl
  | cons c rest =>
    refine .cons (fun _ => rfl) ?_
    iterate 8
      refine .ite (fun _ => .pure _ rest) fun _ => ?_
    refine .ite (fun _ => ?_) fun _ => .fail _ rest
    exact .bind (settles_hexWord rest) (@follows_hexWord 0 rest)
      (fun n rest _ => settles_behindDigits n rest) nofun

/-- Bytes of a string that are not well-formed stay so. -/
private theorem settles_closeString (acc b : Bytes) : Settles (closeString acc) b := by
  obtain ⟨text, hdone⟩ | hfailed := closeString_eq acc
  · rw [hdone]
    exact .pure text b
  · exact .of_failed (hfailed b)

/-- A string with an escape in front is settled if the rest of it is. -/
private theorem settles_stringFrom_backslash {acc rest : Bytes}
    (h : ∀ value after, escape rest = .done value after →
      Settles (stringFrom ((Utf8.encodeChar value).reverse ++ acc)) after) :
    Settles (stringFrom acc) (0x5C :: rest) :=
  .cons (stringFrom_backslash acc)
    (.bind (settles_escape rest) (@follows_escape 0 rest) h nofun)

/-- A string is settled wherever it is taken up. -/
private theorem settles_stringFrom (acc b : Bytes) : Settles (stringFrom acc) b := by
  fun_induction stringFrom acc b with
  | case1 acc => exact .of_incomplete (by rw [stringFrom])
  | case2 acc rest => exact .cons (stringFrom_quote acc) (settles_closeString acc rest)
  | case3 acc rest value after h _ _ ih =>
    refine settles_stringFrom_backslash fun value' after' h' => ?_
    obtain ⟨rfl, rfl⟩ := Reading.done.inj (h.symm.trans h')
    exact ih
  | case4 acc rest h =>
    refine settles_stringFrom_backslash fun value after h' => ?_
    cases h.symm.trans h'
  | case5 acc rest failure h =>
    refine settles_stringFrom_backslash fun value after h' => ?_
    cases h.symm.trans h'
  | case6 acc c rest quote backslash control =>
    exact .fail_behind fun rest' => by
      rw [stringFrom_of_ne acc quote backslash, if_pos control]
  | case7 acc c rest quote backslash control ih =>
    refine .cons (fun rest' => ?_) ih
    rw [stringFrom_of_ne acc quote backslash, if_neg control]

/-- A string is settled behind its opening quote. -/
private theorem settles_string (b : Bytes) : Settles string b :=
  settles_stringFrom [] b

/-! ### Contents of containers -/

/-- Behind a comma an array must not end. -/
private theorem settles_elementBehindComma (b : Bytes) : Settles elementBehindComma b := by
  refine .space elementBehindComma_skipSpace ?_
  cases h : skipSpace b with
  | nil => exact .of_incomplete rfl
  | cons d unread =>
    have hcons := elementBehindComma_cons (isSpace_of_skipSpace_eq_cons h)
    by_cases hclose : d = 0x5D
    · exact .fail_behind fun rest' => by rw [hcons, if_pos hclose]
    · exact .of_head (fun rest' => by rw [hcons, if_neg hclose]) (.pure true _)

/-- Between two elements there has to be a comma. -/
private theorem settles_nextElement (first : Bool) (b : Bytes) : Settles (nextElement first) b := by
  refine .space (nextElement_skipSpace first) ?_
  cases h : skipSpace b with
  | nil => exact .of_incomplete rfl
  | cons c rest =>
    have hcons := nextElement_cons (isSpace_of_skipSpace_eq_cons h) first
    by_cases hclose : c = 0x5D
    · exact .cons (fun rest' => by rw [hcons, if_pos hclose]) (.pure false rest)
    cases first with
    | true =>
      refine .of_head (fun rest' => ?_) (.pure true (c :: rest))
      rw [hcons, if_neg hclose, if_pos rfl]
    | false =>
      by_cases hcomma : c = 0x2C
      · refine .cons (fun rest' => ?_) (settles_elementBehindComma rest)
        rw [hcons, if_neg hclose, if_neg Bool.false_ne_true, if_pos hcomma]
      · have hfail : ∀ rest', nextElement false (c :: rest') =
            fail .expectedListCommaOrEnd rest' := fun rest' => by
          rw [hcons, if_neg hclose, if_neg Bool.false_ne_true, if_neg hcomma]
        exact .fail_behind hfail

/-- Behind a comma there has to be a key. -/
private theorem settles_keyBehindComma (b : Bytes) : Settles keyBehindComma b := by
  refine .space keyBehindComma_skipSpace ?_
  cases h : skipSpace b with
  | nil => exact .of_incomplete rfl
  | cons d unread =>
    refine .cons (keyBehindComma_cons (isSpace_of_skipSpace_eq_cons h)) ?_
    refine .ite (fun _ => .pure true unread) fun _ => ?_
    exact .ite (fun _ => .fail .trailingComma unread) fun _ => .fail .keyNotString unread

/-- Between two fields there has to be a comma. -/
private theorem settles_nextKey (first : Bool) (b : Bytes) : Settles (nextKey first) b := by
  refine .space (nextKey_skipSpace first) ?_
  cases h : skipSpace b with
  | nil => exact .of_incomplete rfl
  | cons c rest =>
    refine .cons (nextKey_cons (isSpace_of_skipSpace_eq_cons h) first) ?_
    refine .ite (fun _ => .pure false rest) fun _ => .ite (fun _ => ?_) fun _ => ?_
    · exact .ite (fun _ => .pure true rest) fun _ => .fail .keyNotString rest
    · exact .ite (fun _ => settles_keyBehindComma rest) fun _ =>
        .fail .expectedObjectCommaOrEnd rest

/-- Behind a key there has to be a colon. -/
private theorem settles_colon (b : Bytes) : Settles colon b := by
  refine .space colon_skipSpace ?_
  cases h : skipSpace b with
  | nil => exact .of_incomplete rfl
  | cons c rest =>
    refine .cons (colon_cons (isSpace_of_skipSpace_eq_cons h)) ?_
    exact .ite (fun _ => .pure () rest) fun _ => .fail .expectedColon rest

/-- The members of a container, one of which comes next or the closing bracket does. -/
private theorem Continues.settles {next : Bytes → Reading Failure Bool}
    {f k : Bytes → Reading Failure α}
    {v : α} {peeks : Bool} (h : Continues depth s peeks next b) (hnext : Settles next b)
    (heq : ∀ b, f b = (next b).bind fun more rest => if more then k rest else .done v rest)
    (hk : ∀ rest, next b = .done true rest → Settles k rest)
    (hend : ∀ failure, k [] ≠ .failed failure) : Settles f b := by
  by_cases hclosed : ∃ rest, next b = .done false rest
  · obtain ⟨rest, hclosed⟩ := hclosed
    refine .of_ne fun failure hfailed => ?_
    rw [heq, hclosed] at hfailed
    cases hfailed
  · obtain rfl : f = fun b =>
        (next b).bind fun more rest => if more then k rest else .done v rest := funext heq
    have hgoes := h.goes fun rest hrest => hclosed ⟨rest, hrest⟩
    refine .bind hnext hgoes (fun more rest hmore => ?_) fun _ more failure => ?_
    · cases more with
      | false => exact absurd ⟨rest, hmore⟩ hclosed
      | true => exact hk rest hmore
    · cases more with
      | false => exact nofun
      | true => exact hend failure

private theorem settles_elements {item : Reader Failure Value}
    (hpasses : ∀ b, Passes (depth + 1) item.run b) (hitem : ∀ b, Settles item.run b)
    (hnil : item.run [] = .incomplete) (first : Bool) (acc : List Value) (b : Bytes) :
    Settles (elements item first acc) b := by
  refine (@continues_nextElement depth first b).settles (settles_nextElement first b)
    (elements_eq item first acc) (fun rest hnext => ?_) fun failure hfailed => ?_
  · refine .bind (hitem rest) (hpasses rest) (fun value after hvalue => ?_)
      fun _ value failure => ?_
    · have hlt : after.length < b.length :=
        Nat.lt_of_lt_of_le (item.progress hvalue) (length_le_of_nextElement hnext)
      exact settles_elements hpasses hitem hnil false (value :: acc) after
    · rw [elements_eq]
      exact nofun
  · rw [hnil] at hfailed
    cases hfailed
termination_by b.length

private theorem settles_field {item : Reader Failure Value} (hitem : ∀ b, Settles item.run b)
    (b : Bytes) :
    Settles (field item) b := by
  refine .bind (settles_string b) (@follows_string 0 b) (fun key rest _ => ?_) nofun
  refine .bind (settles_colon rest) (@follows_colon 0 rest) (fun _ rest _ => ?_) nofun
  exact (hitem rest).map

/-- Without any bytes there is no field yet. -/
private theorem field_nil (item : Reader Failure Value) : field item [] = .incomplete := by
  rw [field, string, stringFrom]
  rfl

private theorem settles_fields {item : Reader Failure Value}
    (hpasses : ∀ b, Passes (depth + 1) item.run b)
    (hitem : ∀ b, Settles item.run b) (first : Bool) (acc : Fields) (b : Bytes) :
    Settles (fields item first acc) b := by
  refine (@continues_nextKey depth first b).settles (settles_nextKey first b)
    (fields_eq item first acc) (fun rest hnext => ?_) fun failure hfailed => ?_
  · refine .bind (settles_field hitem rest) (follows_field hpasses rest)
      (fun p after hfield => ?_) fun _ p failure => ?_
    · have hlt : after.length < b.length :=
        Nat.lt_of_lt_of_le (length_lt_of_field hfield) (length_le_of_nextKey hnext)
      exact settles_fields hpasses hitem false (acc.insert p.1 p.2) after
    · rw [fields_eq]
      exact nofun
  · rw [field_nil] at hfailed
    cases hfailed
termination_by b.length

/-! ### Values -/

/-- Numbers and literals are settled. -/
private theorem settles_scalar (c : UInt8) (rest : Bytes) {f : Bytes → Reading Failure Value}
    (heq : ∀ rest', f (c :: rest') = scalar c rest') : Settles f (c :: rest) := by
  simp only [scalar] at heq
  by_cases hminus : c = 0x2D
  · exact .cons (fun rest' => by rw [heq, if_pos hminus]) (settles_number true rest)
  simp only [if_neg hminus] at heq
  by_cases hdigit : isDigit c = true
  · exact .of_head (fun rest' => by rw [heq, if_pos hdigit]) (settles_number false _)
  simp only [if_neg hdigit] at heq
  refine .cons heq (.ite (fun _ => settles_literal _ _ rest) fun _ => ?_)
  refine .ite (fun _ => settles_literal _ _ rest) fun _ => ?_
  exact .ite (fun _ => settles_literal _ _ rest) fun _ => .fail .expectedValue rest

/-- A value is settled if the values inside of it are. -/
private theorem settles_value {inner : Option (Reader Failure Value)}
    (hpasses : ∀ item ∈ inner, ∀ b, Passes (depth + 1) item.run b)
    (hinner : ∀ item ∈ inner, ∀ b, Settles item.run b)
    (hnil : ∀ item ∈ inner, item.run [] = .incomplete) (b : Bytes) : Settles (value inner) b := by
  refine .space (value_skipSpace inner) ?_
  cases h : skipSpace b with
  | nil => exact .of_incomplete rfl
  | cons c rest =>
    by_cases hquote : c = 0x22
    · subst hquote
      exact .cons (value_text inner) (settles_string rest).map
    by_cases hopening : isOpening c
    · cases inner with
      | none => exact .fail_behind (value_tooDeep hopening)
      | some item =>
        rcases hopening with rfl | rfl
        · have hfields : Settles (fields item true []) rest :=
            settles_fields (hpasses item rfl) (hinner item rfl) true [] rest
          exact .cons (value_map item) hfields.map
        · have helements : Settles (elements item true []) rest :=
            settles_elements (hpasses item rfl) (hinner item rfl) (hnil item rfl) true [] rest
          exact .cons (value_array item) helements.map
    · exact settles_scalar c rest
        (value_scalar inner (isSpace_of_skipSpace_eq_cons h) hquote hopening)

/-- Without any bytes there is no value yet. -/
private theorem reader_nil (room : Nat) : (reader room).run [] = .incomplete := by
  cases room with
  | zero => rfl
  | succ room => rfl

/-- **A fault in JSON text is found whatever follows**, or the text ends with a number that is out
of range. -/
theorem settles_reader (room : Nat) (b : Bytes) : Settles (reader room).run b := by
  induction room generalizing b with
  | zero =>
    have hpasses : ∀ item ∈ (none : Option (Reader Failure Value)), ∀ b, Passes 1 item.run b :=
      fun _ hitem => absurd hitem (Option.not_mem_none _)
    have hinner : ∀ item ∈ (none : Option (Reader Failure Value)), ∀ b, Settles item.run b :=
      fun _ hitem => absurd hitem (Option.not_mem_none _)
    exact settles_value hpasses hinner (fun _ hitem => absurd hitem (Option.not_mem_none _)) b
  | succ room ih =>
    have hpasses : ∀ item ∈ some (reader room), ∀ b, Passes 1 item.run b := by
      rintro item ⟨⟩ b
      exact passes_reader room 0 b
    have hinner : ∀ item ∈ some (reader room), ∀ b, Settles item.run b := by
      rintro item ⟨⟩ b
      exact ih b
    have hnil : ∀ item ∈ some (reader room), item.run [] = .incomplete := by
      rintro item ⟨⟩
      exact reader_nil room
    exact settles_value hpasses hinner hnil b

/-- **Text that goes on to a value** breaks off in front of it, or at a number that is out of range
where the text ends and is not once it goes on. -/
theorem read_cut {more after : Bytes} {v : Value} (h : read (b ++ more) = .done v after)
    (hcut : ∀ w rest, read b ≠ .done w rest) :
    (read b = .incomplete ∧
        ∀ negative token, ¬Overruns negative token (reader maxDepth).run b) ∨
      ∃ negative token, Overruns negative token (reader maxDepth).run b ∧
        (∃ w rest, number negative (token ++ more) = .done w rest) ∧
        read b = .failed (Failure.locate b ⟨.numberOutOfRange, []⟩) := by
  have hdone : (reader maxDepth).run (b ++ more) = .done v after :=
    Reading.mapError_eq_done_iff.1 h
  cases hrun : (reader maxDepth).run b with
  | done w rest => exact absurd (Reading.mapError_eq_done_iff.2 hrun) (hcut w rest)
  | incomplete =>
    refine .inl ⟨Reading.mapError_eq_incomplete_iff.2 hrun, fun negative token hoverruns => ?_⟩
    rw [hoverruns.eq_failed] at hrun
    cases hrun
  | failed failure =>
    obtain hsame | ⟨negative, token, hoverruns⟩ := settles_reader maxDepth b failure hrun
    · rw [hsame] at hdone
      cases hdone
    · refine .inr ⟨negative, token, hoverruns, hoverruns.exists_number hdone, ?_⟩
      rw [read, hoverruns.eq_failed]
      rfl

/-! ### A number that overruns -/

/-- The digits of ten to the power of 309, which exceeds all floats. -/
def beyondFloats : Bytes :=
  0x31 :: List.replicate 309 0x30

/-- Twenty of the digits fit into the significand. -/
private theorem absorb_beyondFloats : absorb 1 (List.replicate 309 0x30) =
    (10000000000000000000, List.replicate 290 0x30) :=
  rfl

/-- There are 310 of them. -/
theorem length_beyondFloats : beyondFloats.length = 310 := by
  rw [beyondFloats, List.length_cons, List.length_replicate]

/-- The digits make up a significand and a power of ten, whatever follows them but a digit. -/
private theorem number_beyondFloats {tail : Bytes} (htail : tail.takeWhile isDigit = []) :
    number false (beyondFloats ++ tail) = afterInteger false 10000000000000000000 290 tail := by
  have hzeros : ∀ c ∈ List.replicate 309 0x30, isDigit c = true := by
    intro c hc
    rw [List.eq_of_mem_replicate hc]
    rfl
  have hdrop : tail.dropWhile isDigit = tail := by
    have hsplit := List.takeWhile_append_dropWhile (p := isDigit) (l := tail)
    rwa [htail, List.nil_append] at hsplit
  have hnumber : number false (beyondFloats ++ tail) =
      moreDigits false 1 (List.replicate 309 0x30 ++ tail) :=
    number_digit false (by decide) rfl _
  rw [hnumber, moreDigits, List.takeWhile_append_of_pos hzeros,
    List.dropWhile_append_of_pos hzeros, htail, hdrop, List.append_nil, absorb_beyondFloats,
    List.length_replicate]

/-- The digits alone are out of range. -/
private theorem number_beyondFloats_eq_fail :
    number false beyondFloats = fail .numberOutOfRange [] := by
  have hscale : scale (.ofNat 10000000000000000000) (290 : Nat) = none := by
    rw [scale]
    decide +kernel
  have hdigits := @number_beyondFloats [] rfl
  rw [List.append_nil] at hdigits
  rw [hdigits, afterInteger, integerPart, if_neg (by decide), floatValue, hscale]

/-- With an exponent behind them they stand for ten to the power of nine. -/
private theorem number_beyondFloats_eq_done (rest : Bytes) :
    number false (beyondFloats ++ 0x65 :: 0x2D :: 0x33 :: 0x30 :: 0x30 :: 0x2C :: rest) =
      .done (.float ⟨0x41CDCD6500000000⟩) (0x2C :: rest) := by
  have hscale : scale (.ofNat 10000000000000000000) ((290 : Nat) - (300 : Nat)) =
      some ⟨0x41CDCD6500000000⟩ := by
    rw [scale]
    decide +kernel
  have hexponent : afterInteger false 10000000000000000000 290
      (0x65 :: 0x2D :: 0x33 :: 0x30 :: 0x30 :: 0x2C :: rest) =
        floatValue false 10000000000000000000 ((290 : Nat) - (300 : Nat)) (0x2C :: rest) := rfl
  rw [number_beyondFloats rfl, hexponent, floatValue, hscale]
  rfl

/-- An element that comes next is read, and then the others. -/
private theorem elements_of_nextElement {item : Reader Failure Value} {first : Bool}
    (h : nextElement first b = .done true rest) (acc : List Value) :
    elements item first acc b =
      (item.run rest).bind fun value after => elements item false (value :: acc) after := by
  rw [elements_eq, h, Reading.bind_done, if_pos rfl]

/-- Behind an empty text in front of an array a number comes next. -/
private theorem reader_run_number (tail : Bytes) :
    (reader maxDepth).run ([0x5B, 0x22, 0x22, 0x2C] ++ 0x31 :: tail) =
      (number false (0x31 :: tail)).bind fun v after =>
        (elements (reader 126) false [v, .text ""] after).map .array := by
  have hempty : Utf8.decode? ([] : Bytes).reverse = some "" := by with_unfolding_all rfl
  have htext : (reader 126).run (0x22 :: 0x22 :: 0x2C :: 0x31 :: tail) =
      (string (0x22 :: 0x2C :: 0x31 :: tail)).map .text := rfl
  have hnumber : (reader 126).run (0x31 :: tail) = number false (0x31 :: tail) := rfl
  have harray : (reader maxDepth).run ([0x5B, 0x22, 0x22, 0x2C] ++ 0x31 :: tail) =
      (elements (reader 126) true [] (0x22 :: 0x22 :: 0x2C :: 0x31 :: tail)).map .array := rfl
  have hfirst : nextElement true (0x22 :: 0x22 :: 0x2C :: 0x31 :: tail) =
      .done true (0x22 :: 0x22 :: 0x2C :: 0x31 :: tail) := rfl
  have hsecond : nextElement false (0x2C :: 0x31 :: tail) = .done true (0x31 :: tail) := rfl
  rw [harray, elements_of_nextElement hfirst, htext, string, stringFrom_quote, closeString, hempty,
    Reading.map_done, Reading.bind_done, elements_of_nextElement hsecond, hnumber]
  cases number false (0x31 :: tail) <;> rfl

/-- Text that ends with the digits overruns. -/
theorem overruns_beyondFloats : Overruns false beyondFloats (reader maxDepth).run
    ([0x5B, 0x22, 0x22, 0x2C] ++ beyondFloats) := by
  refine ⟨List.suffix_append _ _, number_beyondFloats_eq_fail,
    fun v after => (elements (reader 126) false [v, .text ""] after).map .array, fun more => ?_⟩
  rw [List.append_assoc]
  exact reader_run_number (List.replicate 309 0x30 ++ more)

/-- An exponent and an empty object behind the digits make the text a value. -/
theorem reader_run_beyondFloats : (reader maxDepth).run ([0x5B, 0x22, 0x22, 0x2C] ++ beyondFloats ++
    [0x65, 0x2D, 0x33, 0x30, 0x30, 0x2C, 0x7B, 0x7D, 0x5D]) =
      .done (.array [.text "", .float ⟨0x41CDCD6500000000⟩, .map []]) [] := by
  have hnumber := number_beyondFloats_eq_done [0x7B, 0x7D, 0x5D]
  have hrest : elements (reader 126) false [.float ⟨0x41CDCD6500000000⟩, .text ""]
      [0x2C, 0x7B, 0x7D, 0x5D] =
        .done [.text "", .float ⟨0x41CDCD6500000000⟩, .map []] [] := by
    with_unfolding_all rfl
  have hfront := reader_run_number (List.replicate 309 0x30 ++
    [0x65, 0x2D, 0x33, 0x30, 0x30, 0x2C, 0x7B, 0x7D, 0x5D])
  rw [← List.cons_append, ← beyondFloats, hnumber, Reading.bind_done, hrest] at hfront
  rw [List.append_assoc, hfront]
  rfl

end Json

end ForwardIntake
