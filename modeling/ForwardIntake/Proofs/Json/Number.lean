import ForwardIntake.Proofs.Json.Walk

/-!
# Reading JSON numbers and walking over them

No byte of a number means anything to a walk over brackets, so the walk passes over whatever the
reader of numbers reads (`passes_number`).  The reader has to see the byte behind a number, and at
the end of the bytes there is none; a number that ends there is not settled yet.
-/

namespace ForwardIntake

namespace Json

open ForwardIntake.Frame ForwardIntake.Frame.BracketWalk

variable {depth : Nat} {b : Bytes} (negative : Bool) (significand : Nat) (shift : Int)

/-! ### Digits -/

/-- A walk over brackets takes no notice of a digit. -/
theorem isMark_of_isDigit {c : UInt8} (h : isDigit c = true) : isMark c = false := by
  simp only [isDigit, Bool.and_eq_true, decide_eq_true_eq, UInt8.le_iff_toNat_le] at h
  simp only [isMark, Bool.or_eq_false_iff, beq_eq_false_iff_ne]
  refine ⟨⟨⟨⟨?_, ?_⟩, ?_⟩, ?_⟩, ?_⟩
  all_goals
    rintro rfl
    exact absurd h (by decide)

/-- The digits at the front are the same ones whatever follows them, unless it is a digit. -/
theorem digits_append {rest : Bytes} (h : rest.head? = (b.dropWhile isDigit).head?) :
    (b.takeWhile isDigit ++ rest).takeWhile isDigit = b.takeWhile isDigit ∧
      (b.takeWhile isDigit ++ rest).dropWhile isDigit = rest := by
  have hdigits : ∀ c ∈ b.takeWhile isDigit, isDigit c = true := fun _ => List.mem_takeWhile_imp
  rw [List.takeWhile_append_of_pos hdigits, List.dropWhile_append_of_pos hdigits]
  cases rest with
  | nil => exact ⟨List.append_nil _, rfl⟩
  | cons c tail =>
    have hstop := List.head?_dropWhile_not isDigit b
    rw [← h] at hstop
    rw [List.takeWhile_cons_of_neg (by rw [hstop]; exact Bool.false_ne_true),
      List.dropWhile_cons_of_neg (by rw [hstop]; exact Bool.false_ne_true), List.append_nil]
    exact ⟨rfl, rfl⟩

/-- Digits are passed over and `g` goes on behind the last of them. -/
theorem Passes.digits {f g : Bytes → Reading Failure Value}
    (heq : ∀ rest, rest.head? = (b.dropWhile isDigit).head? →
      f (b.takeWhile isDigit ++ rest) = g rest)
    (hg : Passes depth g (b.dropWhile isDigit)) : Passes depth f b := by
  have hlead : Leads (outside depth) (outside depth) (b.takeWhile isDigit) :=
    leads_outside depth fun _ hc => isMark_of_isDigit (List.mem_takeWhile_imp hc)
  have hafter := Follows.after hlead heq hg hlead.trans
  rwa [List.takeWhile_append_dropWhile] at hafter

/-! ### Floats and exponents -/

/-- What follows a float has no influence on it. -/
theorem floatValue_eq (e : Int) :
    (∃ x, floatValue negative significand e = .done (signedFloat negative x)) ∨
      floatValue negative significand e = fail .numberOutOfRange := by
  cases hscale : scale (.ofNat significand) e with
  | some x => exact .inl ⟨x, funext fun rest => by rw [floatValue, hscale]⟩
  | none => exact .inr (funext fun rest => by rw [floatValue, hscale])

/-- A float is made of what was read before it, so the walk has nothing to pass. -/
private theorem passes_floatValue (e : Int) :
    Passes depth (floatValue negative significand e) b := by
  obtain ⟨x, hdone⟩ | hfail := floatValue_eq negative significand e
  · rw [hdone]
    exact .pure _ b
  · rw [hfail]
    exact .fail _ b

/-- The digits that are read into an exponent. -/
theorem exists_exponentDigits (e : Nat) (b : Bytes) :
    ∃ front, b = front ++ (exponentDigits e b).2 ∧ (∀ c ∈ front, isDigit c = true) ∧
      ∀ rest, rest.head? = (exponentDigits e b).2.head? →
        exponentDigits e (front ++ rest) = ((exponentDigits e b).1, rest) := by
  induction b generalizing e with
  | nil =>
    refine ⟨[], rfl, fun _ hc => absurd hc List.not_mem_nil, fun rest hhead => ?_⟩
    obtain rfl := List.head?_eq_none_iff.1 hhead
    rfl
  | cons c tail ih =>
    by_cases hdigit : isDigit c = true
    · by_cases hfits : e * 10 + digitValue c < 0x80000000
      · obtain ⟨front, htail, hfront, hsame⟩ := ih (e * 10 + digitValue c)
        simp only [exponentDigits, if_pos hdigit, if_pos hfits]
        refine ⟨c :: front, by rw [List.cons_append, ← htail], ?_, fun rest hhead => ?_⟩
        · exact List.forall_mem_cons.2 ⟨hdigit, hfront⟩
        · rw [List.cons_append]
          simp only [exponentDigits, if_pos hdigit, if_pos hfits]
          exact hsame rest hhead
      · simp only [exponentDigits, if_pos hdigit, if_neg hfits]
        refine ⟨[c], rfl, List.forall_mem_singleton.2 hdigit, fun rest _ => ?_⟩
        simp only [List.singleton_append, exponentDigits, if_pos hdigit, if_neg hfits]
    · simp only [exponentDigits, if_neg hdigit]
      refine ⟨[], rfl, fun _ hc => absurd hc List.not_mem_nil, fun rest hhead => ?_⟩
      obtain ⟨tail', rfl⟩ := List.head?_eq_some_iff.1 hhead
      simp only [List.nil_append, exponentDigits, if_neg hdigit]

/-- The number whose exponent has been read, and is none if it did not fit. -/
def withExponent (negative : Bool) (significand : Nat) (shift : Int) (down : Bool) :
    Option Nat → Bytes → Reading Failure Value
  | some e, rest => floatValue negative significand (if down then shift - e else shift + e) rest
  | none, rest =>
    if significand ≠ 0 ∧ !down then fail .numberOutOfRange rest
    else .done (signedFloat negative ⟨0⟩) (rest.dropWhile isDigit)

/-- Reads the exponent of a number from behind its sign. -/
def unsignedExponent (negative : Bool) (significand : Nat) (shift : Int) (down : Bool) :
    Bytes → Reading Failure Value
  | [] => .incomplete
  | c :: rest =>
    if isDigit c then
      withExponent negative significand shift down (exponentDigits (digitValue c) rest).1
        (exponentDigits (digitValue c) rest).2
    else fail .invalidNumber rest

/-- The exponent in two steps, first its sign and then the digits. -/
theorem exponentPart_eq (b : Bytes) :
    exponentPart negative significand shift b =
      unsignedExponent negative significand shift (exponentSign b).1 (exponentSign b).2 := by
  rw [exponentPart]
  generalize exponentSign b = signed
  obtain ⟨down, digits⟩ := signed
  cases digits with
  | nil => rfl
  | cons c rest =>
    simp only [unsignedExponent]
    split
    · generalize exponentDigits (digitValue c) rest = read
      obtain ⟨_ | e, after⟩ := read
      · rfl
      · rfl
    · rfl

/-- Behind the digits of an exponent that does not fit, the digits left over are passed as well. -/
private theorem passes_withExponent (down : Bool) (e? : Option Nat) :
    Passes depth (withExponent negative significand shift down e?) b := by
  cases e? with
  | some e => exact passes_floatValue ..
  | none =>
    refine .ite (fun _ => .fail _ b) fun _ => ?_
    exact Passes.digits (fun rest hhead => by rw [(digits_append hhead).2]) (.pure _ _)

/-- The walk passes over an exponent, from behind its sign. -/
private theorem passes_unsignedExponent (down : Bool) :
    Passes depth (unsignedExponent negative significand shift down) b := by
  cases b with
  | nil => exact .of_incomplete rfl
  | cons c rest =>
    by_cases hdigit : isDigit c = true
    · obtain ⟨front, hrest, hfront, hsame⟩ := exists_exponentDigits (digitValue c) rest
      generalize exponentDigits (digitValue c) rest = read at hrest hsame
      have hlead : Leads (outside depth) (outside depth) (c :: front) :=
        .cons (fun _ => step_outside_of_not_mark (isMark_of_isDigit hdigit))
          (leads_outside depth fun _ hc => isMark_of_isDigit (hfront _ hc))
      rw [hrest]
      have hexponent : Passes depth (withExponent negative significand shift down read.1) read.2 :=
        passes_withExponent negative significand shift down read.1
      refine Follows.after hlead (fun rest' hhead => ?_) hexponent hlead.trans
      rw [List.cons_append, unsignedExponent, if_pos hdigit, hsame rest' hhead]
    · exact .fail_behind fun rest' => by rw [unsignedExponent, if_neg hdigit]

/-- The walk passes over an exponent, from its sign on. -/
private theorem passes_exponentPart : Passes depth (exponentPart negative significand shift) b := by
  cases b with
  | nil => exact .of_incomplete rfl
  | cons c rest =>
    by_cases hplus : c = 0x2B
    · subst hplus
      have hsign := fun rest' => exponentPart_eq negative significand shift (0x2B :: rest')
      exact Passes.cons rfl hsign (passes_unsignedExponent negative significand shift false)
    by_cases hminus : c = 0x2D
    · subst hminus
      have hsign := fun rest' => exponentPart_eq negative significand shift (0x2D :: rest')
      exact Passes.cons rfl hsign (passes_unsignedExponent negative significand shift true)
    refine .of_head (fun rest' => ?_) (passes_unsignedExponent negative significand shift false)
    rw [exponentPart_eq, exponentSign, if_neg hplus, if_neg hminus]

/-! ### Fractions -/

/-- A walk over brackets takes no notice of the letter before an exponent. -/
theorem isMark_of_exponentMark {c : UInt8} (h : c = 0x65 ∨ c = 0x45) : isMark c = false := by
  rcases h with rfl | rfl <;> rfl

/-- Behind a fraction there is an exponent, or the number is over. -/
private theorem passes_afterFraction :
    Passes depth (afterFraction negative significand shift) b := by
  cases b with
  | nil => exact .nil length_le_of_afterFraction
  | cons c rest =>
    by_cases hexponent : c = 0x65 ∨ c = 0x45
    · exact Passes.cons (isMark_of_exponentMark hexponent)
        (fun rest' => by rw [afterFraction, if_pos hexponent])
        (passes_exponentPart negative significand shift)
    · exact .of_head (fun rest' => by rw [afterFraction, if_neg hexponent])
        (passes_floatValue negative significand shift)

/-- A fraction has at least one digit. -/
theorem fractionPart_of_not_digit {c : UInt8} (shift : Nat) (h : ¬isDigit c = true)
    (rest : Bytes) :
    fractionPart negative significand shift (c :: rest) = fail .invalidNumber rest := by
  simp only [fractionPart, List.takeWhile_cons_of_neg h, List.dropWhile_cons_of_neg h, if_true]

/-- Behind the digits of a fraction the number goes on with any byte but a digit. -/
theorem fractionPart_append {c : UInt8} {tail rest : Bytes} (shift : Nat) (h : isDigit c = true)
    (hhead : rest.head? = ((c :: tail).dropWhile isDigit).head?) :
    fractionPart negative significand shift ((c :: tail).takeWhile isDigit ++ rest) =
      afterFraction negative (absorb significand ((c :: tail).takeWhile isDigit)).1
        ((shift : Int) - (((c :: tail).takeWhile isDigit).length -
          (absorb significand ((c :: tail).takeWhile isDigit)).2.length : Nat)) rest := by
  have hdigits : (c :: tail).takeWhile isDigit ≠ [] := by
    rw [List.takeWhile_cons_of_pos h]
    exact List.cons_ne_nil _ _
  simp only [fractionPart, (digits_append hhead).1, (digits_append hhead).2, if_neg hdigits]

/-- The walk passes over a fraction and what follows it, from behind the point. -/
private theorem passes_fractionPart (shift : Nat) :
    Passes depth (fractionPart negative significand shift) b := by
  cases b with
  | nil => exact .of_incomplete rfl
  | cons c tail =>
    by_cases hdigit : isDigit c = true
    · exact Passes.digits (fun rest => fractionPart_append negative significand shift hdigit)
        (passes_afterFraction ..)
    · exact .fail_behind (fractionPart_of_not_digit negative significand shift hdigit)

/-! ### Numbers -/

/-- At the end of an integer the walk has nothing more to pass. -/
private theorem passes_integerPart (dropped : Nat) :
    Passes depth (integerPart negative significand dropped) b := by
  by_cases h : dropped = 0
  · have hdone : integerPart negative significand dropped =
        .done (integerValue negative significand) :=
      funext fun rest => by rw [integerPart, if_pos h]
    rw [hdone]
    exact .pure _ b
  · have hfloat : integerPart negative significand dropped =
        floatValue negative significand dropped :=
      funext fun rest => by rw [integerPart, if_neg h]
    rw [hfloat]
    exact passes_floatValue ..

/-- Behind the integer part there is a fraction or an exponent, or the number is over. -/
private theorem passes_afterInteger (dropped : Nat) :
    Passes depth (afterInteger negative significand dropped) b := by
  cases b with
  | nil => exact .nil length_le_of_afterInteger
  | cons c rest =>
    by_cases hpoint : c = 0x2E
    · subst hpoint
      exact Passes.cons rfl (fun rest' => by rw [afterInteger, if_pos rfl])
        (passes_fractionPart negative significand dropped)
    by_cases hexponent : c = 0x65 ∨ c = 0x45
    · exact Passes.cons (isMark_of_exponentMark hexponent)
        (fun rest' => by rw [afterInteger, if_neg hpoint, if_pos hexponent])
        (passes_exponentPart negative significand dropped)
    · exact .of_head (fun rest' => by rw [afterInteger, if_neg hpoint, if_neg hexponent])
        (passes_integerPart negative significand dropped)

/-- Continues behind a leading zero, which no digit may follow. -/
def afterZero (negative : Bool) : Bytes → Reading Failure Value
  | [] => afterInteger negative 0 0 []
  | d :: unread =>
    if isDigit d then fail .invalidNumber unread else afterInteger negative 0 0 (d :: unread)

/-- A number that begins with zero, from behind the zero on. -/
theorem number_zero (rest : Bytes) : number negative (0x30 :: rest) = afterZero negative rest := by
  cases rest with
  | nil => rfl
  | cons d unread => rfl

/-- A leading zero is followed by a fraction or an exponent, or the number is over. -/
private theorem passes_afterZero : Passes depth (afterZero negative) b := by
  cases b with
  | nil =>
    refine .nil fun {v rest} hdone => ?_
    exact length_le_of_afterInteger (show afterInteger negative 0 0 [] = .done v rest from hdone)
  | cons d unread =>
    by_cases hdigit : isDigit d = true
    · exact .fail_behind fun rest' => by rw [afterZero, if_pos hdigit]
    · exact .of_head (fun rest' => by rw [afterZero, if_neg hdigit])
        (passes_afterInteger negative 0 0)

/-- Continues behind the first digit of a number, which is not zero. -/
def moreDigits (negative : Bool) (significand : Nat) (b : Bytes) : Reading Failure Value :=
  afterInteger negative (absorb significand (b.takeWhile isDigit)).1
    (absorb significand (b.takeWhile isDigit)).2.length (b.dropWhile isDigit)

/-- A number that begins with another digit, from behind that digit on. -/
theorem number_digit {c : UInt8} (hzero : c ≠ 0x30) (hdigit : isDigit c = true) (rest : Bytes) :
    number negative (c :: rest) = moreDigits negative (digitValue c) rest := by
  simp only [number, if_neg hzero, if_pos hdigit, moreDigits]

/-- A number begins with a digit. -/
theorem number_of_not_digit {c : UInt8} (h : ¬isDigit c = true) (rest : Bytes) :
    number negative (c :: rest) = fail .invalidNumber rest := by
  have hzero : c ≠ 0x30 := by
    rintro rfl
    exact h rfl
  simp only [number, if_neg hzero, if_neg h]

/-- Behind the digits of a number it goes on with any byte but a digit. -/
theorem moreDigits_append {rest : Bytes} (h : rest.head? = (b.dropWhile isDigit).head?) :
    moreDigits negative significand (b.takeWhile isDigit ++ rest) =
      afterInteger negative (absorb significand (b.takeWhile isDigit)).1
        (absorb significand (b.takeWhile isDigit)).2.length rest := by
  rw [moreDigits, (digits_append h).1, (digits_append h).2]

/-- **The walk passes over a number.** -/
theorem passes_number : Passes depth (number negative) b := by
  cases b with
  | nil => exact .of_incomplete rfl
  | cons c rest =>
    by_cases hzero : c = 0x30
    · subst hzero
      exact Passes.cons rfl (number_zero negative) (passes_afterZero negative)
    by_cases hdigit : isDigit c = true
    · exact Passes.cons (isMark_of_isDigit hdigit) (number_digit negative hzero hdigit)
        (Passes.digits (fun rest' => moreDigits_append negative _)
          (passes_afterInteger negative _ _))
    · exact .fail_behind (number_of_not_digit negative hdigit)

end Json

end ForwardIntake
