import ForwardIntake.Proofs.Json.Reader
import ForwardIntake.Proofs.Wire.Reading

/-!
# Where JSON text breaks off

Where the reader runs out of bytes, a walk over brackets has not come to the end of the message
either (`Open`).  There is one exception.  The reader takes the four digits of an escape together,
so it waits for four bytes before it looks at any of them; the walk goes over them one by one, and
takes a quote among them for the end of the string.  Such bytes end less than four bytes behind the
`\u` of an escape (`Reaches`).

`Halts s f b` says that a way of reading runs out of the bytes `b` in no other way, the walk being
at `s` in front of them.  As with `Follows`, one goes through the functions of the reader.
-/

namespace ForwardIntake

namespace Json

open ForwardIntake.Frame ForwardIntake.Frame.BracketWalk

variable {α β : Type} {depth : Nat} {s s' : Nat → BracketWalk} {b front rest : Bytes}

/-! ### Running out of bytes -/

/-- Some bytes lead into a string, and a way of reading that finds `\u` behind them reads the digits
of an escape next. -/
structure Reaches (s : Nat → BracketWalk) (f : Bytes → Reading Failure α) (front : Bytes) :
    Prop where
  leads : ∃ depth, Leads s (inside depth) front
  reads : ∃ k : Nat → Bytes → Reading Failure α,
    ∀ b, f (front ++ 0x5C :: 0x75 :: b) = (hexWord b).bind k

/-- A way of reading runs out of bytes only where the walk does, or in the digits of an escape. -/
def Halts (s : Nat → BracketWalk) (f : Bytes → Reading Failure α) (b : Bytes) : Prop :=
  f b = .incomplete →
    Open s b ∨ ∃ front tail, b = front ++ 0x5C :: 0x75 :: tail ∧ tail.length < 4 ∧
      Reaches s f front

/-- An escape behind bytes that are passed over. -/
private theorem Reaches.after {f g : Bytes → Reading Failure α} {x : Bytes}
    (hfront : Leads s s' front)
    (heq : ∀ b, f (front ++ (x ++ 0x5C :: 0x75 :: b)) = g (x ++ 0x5C :: 0x75 :: b))
    (h : Reaches s' g x) : Reaches s f (front ++ x) := by
  obtain ⟨depth, hleads⟩ := h.leads
  obtain ⟨k, hreads⟩ := h.reads
  refine ⟨⟨depth, hfront.trans hleads⟩, k, fun b => ?_⟩
  rw [List.append_assoc, heq, hreads]

/-- What is done behind the digits does not matter. -/
private theorem Reaches.bind {f : Bytes → Reading Failure α} {k : α → Bytes → Reading Failure β}
    (h : Reaches s f front) : Reaches s (fun b => (f b).bind k) front := by
  obtain ⟨k', hreads⟩ := h.reads
  refine ⟨h.leads, fun n rest => (k' n rest).bind k, fun b => ?_⟩
  rw [hreads, Reading.bind_assoc]

namespace Halts

variable {f g : Bytes → Reading Failure α}

/-- What does not run out of bytes. -/
theorem of_ne (h : f b ≠ .incomplete) : Halts s f b :=
  fun h' => absurd h' h

/-- Without any bytes the walk has not come to an end. -/
theorem nil : Halts s f [] :=
  fun _ => .inl ⟨s, .refl s⟩

/-- Nothing needs to be read. -/
theorem pure (v : α) (b : Bytes) : Halts s (.done v) b := by
  intro h
  cases h

/-- A fault is found, so no bytes are missing. -/
theorem fail (fault : Fault) (b : Bytes) :
    Halts s (Json.fail fault : Bytes → Reading Failure α) b := by
  intro h
  cases h

/-- A choice that does not depend on the bytes. -/
theorem ite {p : Prop} [Decidable p] (hf : p → Halts s f b) (hg : ¬p → Halts s g b) :
    Halts s (fun b => if p then f b else g b) b := by
  by_cases h : p
  · simpa only [if_pos h] using hf h
  · simpa only [if_neg h] using hg h

/-- Some bytes are passed over and `g` goes on behind them, having seen the next byte at most. -/
theorem after (hfront : Leads s s' front)
    (heq : ∀ rest', rest'.head? = rest.head? → f (front ++ rest') = g rest')
    (hg : Halts s' g rest) : Halts s f (front ++ rest) := by
  intro hincomplete
  rw [heq rest rfl] at hincomplete
  obtain hopen | ⟨x, tail, rfl, htail, hreaches⟩ := hg hincomplete
  · exact .inl (hfront.isOpen hopen)
  -- what follows begins with the same byte, whichever bytes stand for the digits
  have hhead : ∀ b, (x ++ 0x5C :: 0x75 :: b).head? = (x ++ 0x5C :: 0x75 :: tail).head? := by
    intro b
    rw [List.head?_append, List.head?_append]
    rfl
  exact .inr ⟨front ++ x, tail, (List.append_assoc ..).symm, htail,
    hreaches.after hfront fun b => heq _ (hhead b)⟩

/-- One byte is passed over and `g` goes on behind it. -/
theorem cons {c : UInt8} (hstep : ∀ pos, (s pos).step c = (s' (pos + 1), false))
    (heq : ∀ rest', f (c :: rest') = g rest') (hg : Halts s' g rest) : Halts s f (c :: rest) :=
  after (.single hstep) (fun rest' _ => heq rest') hg

/-- Space before what is read. -/
theorem space (hspace : ∀ b, f (skipSpace b) = f b) (h : Halts (outside depth) f (skipSpace b)) :
    Halts (outside depth) f b := by
  have hpass : ∀ rest', f (b.takeWhile isSpace ++ rest') = f rest' := by
    intro rest'
    rw [← hspace, skipSpace_append_of_space fun _ => List.mem_takeWhile_imp, hspace]
  have hafter := after (leads_space depth b) (fun rest' _ => hpass rest') h
  rwa [takeWhile_append_skipSpace] at hafter

/-- One way of reading goes on where another one has stopped. -/
theorem bind {k : α → Bytes → Reading Failure β} {peeks : Bool} (h : Halts s f b)
    (hf : Follows s (Leads s s') peeks f b)
    (hk : ∀ v rest, f b = .done v rest → Halts s' (k v) rest) :
    Halts s (fun b => (f b).bind k) b := by
  intro hincomplete
  rcases Reading.bind_eq_incomplete_iff.1 hincomplete with hv | ⟨v, rest, hv, -⟩
  · refine (h hv).imp_right ?_
    rintro ⟨front, tail, hb, htail, hreaches⟩
    exact ⟨front, tail, hb, htail, hreaches.bind⟩
  · obtain ⟨front, rfl, hfront, hsame⟩ := hf.done hv
    refine after hfront (fun rest' hhead => ?_) (hk v rest hv) hincomplete
    simp only [hsame rest' fun _ => hhead, Reading.bind_done]

/-- What is done with the value does not matter. -/
theorem map {k : α → β} (h : Halts s f b) : Halts s (fun b => (f b).map k) b := by
  intro hincomplete
  refine (h (Reading.map_eq_incomplete_iff.1 hincomplete)).imp_right ?_
  rintro ⟨front, tail, hb, htail, hreaches⟩
  exact ⟨front, tail, hb, htail, hreaches.bind⟩

end Halts

/-! ### Plain bytes -/

/-- There are neither quotes nor brackets among the bytes. -/
def Plain (b : Bytes) : Prop :=
  ∀ c ∈ b, isMark c = false

/-- No bytes at all are plain. -/
theorem Plain.nil : Plain [] :=
  fun _ hc => absurd hc List.not_mem_nil

/-- One more byte that the walk takes no notice of. -/
theorem Plain.cons {c : UInt8} (hc : isMark c = false) (h : Plain rest) : Plain (c :: rest) :=
  List.forall_mem_cons.2 ⟨hc, h⟩

/-- Space in front is plain. -/
theorem Plain.space (h : Plain (skipSpace b)) : Plain b := by
  rw [← takeWhile_append_skipSpace b]
  exact List.forall_mem_append.2
    ⟨fun _ hc => isMark_of_isSpace (List.mem_takeWhile_imp hc), h⟩

/-- Digits in front are plain. -/
theorem Plain.digits (h : Plain (b.dropWhile isDigit)) : Plain b := by
  rw [← List.takeWhile_append_dropWhile (p := isDigit) (l := b)]
  exact List.forall_mem_append.2
    ⟨fun _ hc => isMark_of_isDigit (List.mem_takeWhile_imp hc), h⟩

/-- Over plain bytes a walk outside of strings comes to no end. -/
theorem Plain.isOpen (h : Plain b) : Open (outside depth) b :=
  ⟨outside depth, leads_outside depth h⟩

/-! ### Numbers and literals -/

section Numbers

variable {negative : Bool} {significand : Nat}

/-- At the end of a float no bytes are missing. -/
private theorem floatValue_ne_incomplete {e : Int} :
    floatValue negative significand e b ≠ .incomplete := by
  rw [floatValue]
  split <;> simp

/-- At the end of an integer no bytes are missing. -/
private theorem integerPart_ne_incomplete {dropped : Nat} :
    integerPart negative significand dropped b ≠ .incomplete := by
  rw [integerPart]
  split
  · simp
  · exact floatValue_ne_incomplete

/-- At the end of an exponent no bytes are missing. -/
private theorem withExponent_ne_incomplete {shift : Int} {down : Bool} {e? : Option Nat} :
    withExponent negative significand shift down e? b ≠ .incomplete := by
  cases e? with
  | some e => exact floatValue_ne_incomplete
  | none =>
    rw [withExponent]
    split <;> simp

/-- An exponent breaks off only in front of its first digit. -/
private theorem eq_nil_of_unsignedExponent {shift : Int} {down : Bool}
    (h : unsignedExponent negative significand shift down b = .incomplete) : b = [] := by
  cases b with
  | nil => rfl
  | cons c rest =>
    rw [unsignedExponent] at h
    split at h
    · exact absurd h withExponent_ne_incomplete
    · cases h

/-- Where an exponent breaks off there is a sign at most. -/
private theorem plain_of_exponentPart {shift : Int}
    (h : exponentPart negative significand shift b = .incomplete) : Plain b := by
  rw [exponentPart_eq] at h
  have hsign := eq_nil_of_unsignedExponent h
  cases b with
  | nil => exact .nil
  | cons c rest =>
    rw [exponentSign] at hsign
    split at hsign
    · rename_i hplus
      obtain rfl : rest = [] := hsign
      exact .cons (hplus ▸ rfl) .nil
    · split at hsign
      · rename_i hminus
        obtain rfl : rest = [] := hsign
        exact .cons (hminus ▸ rfl) .nil
      · cases hsign

/-- Behind a fraction only an exponent can break off. -/
private theorem plain_of_afterFraction {shift : Int}
    (h : afterFraction negative significand shift b = .incomplete) : Plain b := by
  cases b with
  | nil => exact .nil
  | cons c rest =>
    rw [afterFraction] at h
    split at h
    · rename_i hexponent
      exact .cons (isMark_of_exponentMark hexponent) (plain_of_exponentPart h)
    · exact absurd h floatValue_ne_incomplete

/-- A fraction breaks off within its digits, or in the exponent behind them. -/
private theorem plain_of_fractionPart {shift : Nat}
    (h : fractionPart negative significand shift b = .incomplete) : Plain b := by
  refine .digits ?_
  simp only [fractionPart] at h
  split at h
  · split at h
    · rename_i hrest
      rw [hrest]
      exact .nil
    · cases h
  · exact plain_of_afterFraction h

/-- Behind the integer part only a fraction or an exponent can break off. -/
private theorem plain_of_afterInteger {dropped : Nat}
    (h : afterInteger negative significand dropped b = .incomplete) : Plain b := by
  cases b with
  | nil => exact .nil
  | cons c rest =>
    rw [afterInteger] at h
    split at h
    · rename_i hpoint
      exact .cons (hpoint ▸ rfl) (plain_of_fractionPart h)
    · split at h
      · rename_i hexponent
        exact .cons (isMark_of_exponentMark hexponent) (plain_of_exponentPart h)
      · exact absurd h integerPart_ne_incomplete

/-- There is nothing but the number where a number breaks off. -/
private theorem plain_of_number (h : number negative b = .incomplete) : Plain b := by
  cases b with
  | nil => exact .nil
  | cons c rest =>
    by_cases hzero : c = 0x30
    · subst hzero
      rw [number_zero] at h
      refine .cons rfl ?_
      cases rest with
      | nil => exact .nil
      | cons d unread =>
        rw [afterZero] at h
        split at h
        · cases h
        · exact plain_of_afterInteger h
    · simp only [number, if_neg hzero] at h
      split at h
      · rename_i hdigit
        exact .cons (isMark_of_isDigit hdigit) (.digits (plain_of_afterInteger h))
      · cases h

end Numbers

/-- A literal breaks off within its letters. -/
private theorem plain_of_literal {v : Value} {letters : Bytes}
    (hletters : letters.any isMark = false) (h : literal v letters b = .incomplete) : Plain b := by
  induction letters generalizing b with
  | nil => cases h
  | cons letter letters ih =>
    rw [List.any_cons, Bool.or_eq_false_iff] at hletters
    obtain ⟨hletter, hletters⟩ := hletters
    cases b with
    | nil => exact .nil
    | cons c rest =>
      rw [literal] at h
      split at h
      · rename_i hc
        exact .cons (hc ▸ hletter) (ih hletters h)
      · cases h

/-! ### Strings -/

/-- The four digits of an escape are waited for all together. -/
private theorem hexWord_eq_incomplete_iff : hexWord b = .incomplete ↔ b.length < 4 := by
  match b with
  | [] => exact ⟨fun _ => by decide, fun _ => rfl⟩
  | [_] => exact ⟨fun _ => by simp, fun _ => rfl⟩
  | [_, _] => exact ⟨fun _ => by simp, fun _ => rfl⟩
  | [_, _, _] => exact ⟨fun _ => by simp, fun _ => rfl⟩
  | x :: y :: z :: w :: rest =>
    refine ⟨fun h => ?_, fun h => absurd h (by simp)⟩
    rw [hexWord] at h
    split at h
    · cases h
    · cases h

/-- Reads the digits of the second escape of a surrogate pair, the first one standing for `n`. -/
def secondWord (n : Nat) (b : Bytes) : Reading Failure Char :=
  (hexWord b).bind fun m rest =>
    if m < 0xDC00 ∨ 0xDFFF < m then fail .loneSurrogate rest
    else .done (Char.ofNat (0x10000 + (n - 0xD800) * 0x400 + (m - 0xDC00))) rest

/-- Reads the second escape of a surrogate pair. -/
def secondEscape (n : Nat) (b : Bytes) : Reading Failure Char :=
  (pairByte 0x5C b).bind fun _ rest => (pairByte 0x75 rest).bind fun _ rest => secondWord n rest

/-- Goes on behind the digits of an escape, which stand for `n`. -/
def behindDigits (n : Nat) (b : Bytes) : Reading Failure Char :=
  if 0xDC00 ≤ n ∧ n ≤ 0xDFFF then fail .loneSurrogate b
  else if n < 0xD800 ∨ 0xDBFF < n then .done (Char.ofNat n) b
  else secondEscape n b

/-- Behind `\u` the digits are read first. -/
private theorem escape_unicode (b : Bytes) : escape (0x75 :: b) = (hexWord b).bind behindDigits :=
  rfl

/-- Where four bytes are there no digits are missing. -/
private theorem halts_hexWord (h : ¬b.length < 4) : Halts s hexWord b :=
  .of_ne fun h' => h (hexWord_eq_incomplete_iff.1 h')

/-- The digits of the second half of a pair are read inside the string. -/
private theorem halts_secondWord (n : Nat) (h : ¬b.length < 4) :
    Halts (inside depth) (secondWord n) b :=
  .bind (halts_hexWord h) (follows_hexWord b) fun _ rest _ =>
    .ite (fun _ => .fail _ rest) fun _ => .pure _ rest

/-- The second half of a pair runs out of bytes within its escape. -/
private theorem halts_secondEscape (n : Nat) (b : Bytes) :
    Halts (inside depth) (secondEscape n) b := by
  cases b with
  | nil => exact .nil
  | cons c rest =>
    by_cases hbackslash : c = 0x5C
    · subst hbackslash
      cases rest with
      | nil => exact fun _ => .inl ⟨behind depth, .single fun _ => step_inside_backslash⟩
      | cons d tail =>
        by_cases hletter : d = 0x75
        · subst hletter
          by_cases hshort : tail.length < 4
          · exact fun _ => .inr ⟨[], tail, rfl, hshort, ⟨depth, .refl _⟩, _, fun _ => rfl⟩
          · have hlead : Leads (inside depth) (inside depth) [0x5C, 0x75] :=
              .cons (fun _ => step_inside_backslash) (.single fun _ => step_behind)
            exact .after hlead (fun _ _ => rfl) (halts_secondWord n hshort)
        · refine .of_ne fun h => ?_
          simp [secondEscape, pairByte, hletter] at h
    · refine .of_ne fun h => ?_
      rw [secondEscape, pairByte, if_neg hbackslash, fail_bind] at h
      exact fail_ne_incomplete _ _ h

/-- Behind the digits of an escape the second half of a pair may be missing. -/
private theorem halts_behindDigits (n : Nat) (b : Bytes) :
    Halts (inside depth) (behindDigits n) b :=
  .ite (fun _ => .fail _ b) fun _ => .ite (fun _ => .pure _ b) fun _ => halts_secondEscape n b

/-- An escape behind its backslash, unless its own digits are missing. -/
private theorem halts_escape (h : ∀ tail, b = 0x75 :: tail → ¬tail.length < 4) :
    Halts (behind depth) escape b := by
  cases b with
  | nil => exact .nil
  | cons c rest =>
    refine .cons (fun _ => step_behind) (fun _ => rfl) ?_
    iterate 8
      refine .ite (fun _ => .pure _ rest) fun _ => ?_
    refine .ite (fun hletter => ?_) fun _ => .fail _ rest
    exact .bind (halts_hexWord (h rest (hletter ▸ rfl))) (follows_hexWord rest)
      fun n rest _ => halts_behindDigits n rest

/-- At the end of a string no bytes are missing. -/
private theorem halts_closeString (acc b : Bytes) : Halts s (closeString acc) b := by
  refine .of_ne ?_
  rw [closeString]
  split <;> simp

/-- A string with an escape in front halts if the rest of it does. -/
private theorem halts_stringFrom_backslash {acc rest : Bytes}
    (h : ∀ value after, escape rest = .done value after →
      Halts (inside depth) (stringFrom ((Utf8.encodeChar value).reverse ++ acc)) after) :
    Halts (inside depth) (stringFrom acc) (0x5C :: rest) := by
  by_cases hshort : ∃ tail, rest = 0x75 :: tail ∧ tail.length < 4
  · obtain ⟨tail, rfl, htail⟩ := hshort
    refine fun _ => .inr ⟨[], tail, rfl, htail, ⟨depth, .refl _⟩,
      fun n mid => (behindDigits n mid).bind fun value after =>
        stringFrom ((Utf8.encodeChar value).reverse ++ acc) after, fun b => ?_⟩
    rw [List.nil_append, stringFrom_backslash, escape_unicode, Reading.bind_assoc]
  · refine .cons (fun _ => step_inside_backslash) (stringFrom_backslash acc)
      (.bind (halts_escape fun tail htail => ?_) (follows_escape rest) h)
    exact fun hlt => hshort ⟨tail, htail, hlt⟩

/-- A string runs out of bytes inside, or within an escape. -/
private theorem halts_stringFrom (acc b : Bytes) : Halts (inside depth) (stringFrom acc) b := by
  fun_induction stringFrom acc b with
  | case1 acc => exact .nil
  | case2 acc rest =>
    have hstep : ∀ pos, (inside depth pos).step 0x22 = (outside depth (pos + 1), false) :=
      fun _ => step_inside_quote
    exact .cons hstep (stringFrom_quote acc) (halts_closeString acc rest)
  | case3 acc rest value after h _ _ ih =>
    refine halts_stringFrom_backslash fun value' after' h' => ?_
    obtain ⟨rfl, rfl⟩ := Reading.done.inj (h.symm.trans h')
    exact ih
  | case4 acc rest h =>
    refine halts_stringFrom_backslash fun value after h' => ?_
    cases h.symm.trans h'
  | case5 acc rest failure h =>
    refine halts_stringFrom_backslash fun value after h' => ?_
    cases h.symm.trans h'
  | case6 acc c rest quote backslash control =>
    refine .of_ne fun h => ?_
    rw [stringFrom_of_ne acc quote backslash, if_pos control] at h
    cases h
  | case7 acc c rest quote backslash control ih =>
    refine .cons (fun _ => step_inside_of_ne quote backslash) (fun rest' => ?_) ih
    rw [stringFrom_of_ne acc quote backslash, if_neg control]

/-- A string runs out of bytes inside, or within an escape, from its opening quote on. -/
private theorem halts_string (b : Bytes) : Halts (inside depth) string b :=
  halts_stringFrom [] b

/-! ### Contents of containers -/

/-- Behind a comma an array breaks off in space. -/
private theorem plain_of_elementBehindComma (h : elementBehindComma b = .incomplete) : Plain b := by
  refine .space ?_
  rw [elementBehindComma] at h
  split at h
  · rename_i hb
    rw [hb]
    exact .nil
  · split at h
    · cases h
    · cases h

/-- Between two elements an array breaks off in space, or behind the comma. -/
private theorem plain_of_nextElement {first : Bool} (h : nextElement first b = .incomplete) :
    Plain b := by
  refine .space ?_
  rw [← nextElement_skipSpace] at h
  cases hb : skipSpace b with
  | nil => exact .nil
  | cons c rest =>
    rw [hb, nextElement_cons (isSpace_of_skipSpace_eq_cons hb)] at h
    split at h
    · cases h
    split at h
    · cases h
    split at h
    · rename_i hcomma
      exact .cons (hcomma ▸ rfl) (plain_of_elementBehindComma h)
    · cases h

/-- Behind a comma an object breaks off in space. -/
private theorem plain_of_keyBehindComma (h : keyBehindComma b = .incomplete) : Plain b := by
  refine .space ?_
  rw [keyBehindComma] at h
  split at h
  · rename_i hb
    rw [hb]
    exact .nil
  · split at h
    · cases h
    · split at h
      · cases h
      · cases h

/-- Between two fields an object breaks off in space, or behind the comma. -/
private theorem plain_of_nextKey {first : Bool} (h : nextKey first b = .incomplete) : Plain b := by
  refine .space ?_
  rw [← nextKey_skipSpace] at h
  cases hb : skipSpace b with
  | nil => exact .nil
  | cons c rest =>
    rw [hb, nextKey_cons (isSpace_of_skipSpace_eq_cons hb)] at h
    split at h
    · cases h
    split at h
    · split at h
      · cases h
      · cases h
    split at h
    · rename_i hcomma
      exact .cons (hcomma ▸ rfl) (plain_of_keyBehindComma h)
    · cases h

private theorem plain_of_colon (h : colon b = .incomplete) : Plain b := by
  refine .space ?_
  rw [colon] at h
  split at h
  · rename_i hb
    rw [hb]
    exact .nil
  · split at h
    · cases h
    · cases h

/-- The members of a container, one of which comes next or the closing bracket does. -/
private theorem Continues.halts {next : Bytes → Reading Failure Bool}
    {f k : Bytes → Reading Failure α} {v : α} {peeks : Bool} (h : Continues depth s peeks next b)
    (hplain : next b = .incomplete → Plain b)
    (heq : ∀ b, f b = (next b).bind fun more rest => if more then k rest else .done v rest)
    (hk : ∀ rest, next b = .done true rest → Halts s k rest) : Halts (outside (depth + 1)) f b := by
  by_cases hend : ∃ rest, next b = .done false rest
  · obtain ⟨rest, hend⟩ := hend
    refine .of_ne fun hincomplete => ?_
    rw [heq, hend] at hincomplete
    cases hincomplete
  · obtain rfl : f = fun b =>
        (next b).bind fun more rest => if more then k rest else .done v rest := funext heq
    have hgoes := h.goes fun rest hrest => hend ⟨rest, hrest⟩
    refine .bind (fun hincomplete => .inl (hplain hincomplete).isOpen) hgoes
      fun more rest hmore => ?_
    cases more with
    | false => exact absurd ⟨rest, hmore⟩ hend
    | true => exact hk rest hmore

private theorem halts_elements {item : Reader Failure Value}
    (hpasses : ∀ b, Passes (depth + 1) item.run b)
    (hitem : ∀ b, Halts (outside (depth + 1)) item.run b) (first : Bool) (acc : List Value)
    (b : Bytes) : Halts (outside (depth + 1)) (elements item first acc) b := by
  refine (continues_nextElement first b).halts plain_of_nextElement (elements_eq item first acc)
    fun rest hnext => ?_
  refine .bind (hitem rest) (hpasses rest) fun value after hvalue => ?_
  have hlt : after.length < b.length :=
    Nat.lt_of_lt_of_le (item.progress hvalue) (length_le_of_nextElement hnext)
  exact halts_elements hpasses hitem false (value :: acc) after
termination_by b.length

private theorem halts_field {item : Reader Failure Value}
    (hitem : ∀ b, Halts (outside depth) item.run b) (b : Bytes) :
    Halts (inside depth) (field item) b := by
  refine .bind (halts_string b) (follows_string b) fun key rest _ => ?_
  refine .bind (fun h => .inl (plain_of_colon h).isOpen) (follows_colon rest) fun _ rest _ => ?_
  exact (hitem rest).map

private theorem halts_fields {item : Reader Failure Value}
    (hpasses : ∀ b, Passes (depth + 1) item.run b)
    (hitem : ∀ b, Halts (outside (depth + 1)) item.run b) (first : Bool) (acc : Fields)
    (b : Bytes) : Halts (outside (depth + 1)) (fields item first acc) b := by
  refine (continues_nextKey first b).halts plain_of_nextKey (fields_eq item first acc)
    fun rest hnext => ?_
  refine .bind (halts_field hitem rest) (follows_field hpasses rest) fun p after hfield => ?_
  have hlt : after.length < b.length :=
    Nat.lt_of_lt_of_le (length_lt_of_field hfield) (length_le_of_nextKey hnext)
  exact halts_fields hpasses hitem false (acc.insert p.1 p.2) after
termination_by b.length

/-! ### Values -/

/-- Numbers and literals break off without a mark. -/
private theorem plain_of_scalar {inner : Option (Reader Failure Value)} {c : UInt8}
    (hspace : isSpace c = false) (hquote : c ≠ 0x22) (hopening : ¬isOpening c)
    (h : value inner (c :: rest) = .incomplete) : Plain (c :: rest) := by
  rw [value_scalar inner hspace hquote hopening, scalar] at h
  split at h
  · rename_i hminus
    exact .cons (hminus ▸ rfl) (plain_of_number h)
  split at h
  · exact plain_of_number h
  split at h
  · rename_i hnull
    exact .cons (hnull ▸ rfl) (plain_of_literal rfl h)
  split at h
  · rename_i htrue
    exact .cons (htrue ▸ rfl) (plain_of_literal rfl h)
  split at h
  · rename_i hfalse
    exact .cons (hfalse ▸ rfl) (plain_of_literal rfl h)
  · cases h

/-- A value halts if the values inside of it do. -/
private theorem halts_value {inner : Option (Reader Failure Value)}
    (hpasses : ∀ item ∈ inner, ∀ b, Passes (depth + 1) item.run b)
    (hinner : ∀ item ∈ inner, ∀ b, Halts (outside (depth + 1)) item.run b) (b : Bytes) :
    Halts (outside depth) (value inner) b := by
  refine .space (value_skipSpace inner) ?_
  cases h : skipSpace b with
  | nil => exact .nil
  | cons c rest =>
    have hspace := isSpace_of_skipSpace_eq_cons h
    by_cases hquote : c = 0x22
    · subst hquote
      exact .cons (fun _ => step_outside_quote) (value_text inner) (halts_string rest).map
    by_cases hopening : isOpening c
    · cases inner with
      | none =>
        refine .of_ne fun hincomplete => ?_
        rw [value_tooDeep hopening] at hincomplete
        cases hincomplete
      | some item =>
        have hstep : ∀ pos, (outside depth pos).step c = (outside (depth + 1) (pos + 1), false) :=
          fun _ => step_outside_opening hopening
        rcases hopening with rfl | rfl
        · exact .cons hstep (value_map item)
            (halts_fields (hpasses item rfl) (hinner item rfl) true [] rest).map
        · exact .cons hstep (value_array item)
            (halts_elements (hpasses item rfl) (hinner item rfl) true [] rest).map
    · exact fun hincomplete => .inl (plain_of_scalar hspace hquote hopening hincomplete).isOpen

/-- **The reader runs out of bytes only where the walk does, or in the digits of an escape.** -/
private theorem halts_reader (room depth : Nat) (b : Bytes) :
    Halts (outside depth) (reader room).run b := by
  induction room generalizing depth b with
  | zero =>
    have hpasses : ∀ item ∈ (none : Option (Reader Failure Value)), ∀ b,
        Passes (depth + 1) item.run b :=
      fun _ hitem => absurd hitem (Option.not_mem_none _)
    have hinner : ∀ item ∈ (none : Option (Reader Failure Value)), ∀ b,
        Halts (outside (depth + 1)) item.run b :=
      fun _ hitem => absurd hitem (Option.not_mem_none _)
    exact halts_value hpasses hinner b
  | succ room ih =>
    have hpasses : ∀ item ∈ some (reader room), ∀ b, Passes (depth + 1) item.run b := by
      rintro item ⟨⟩ b
      exact passes_reader room depth b
    have hinner : ∀ item ∈ some (reader room), ∀ b, Halts (outside (depth + 1)) item.run b := by
      rintro item ⟨⟩ b
      exact ih (depth + 1) b
    exact halts_value hpasses hinner b

/-! ### Missing digits -/

/-- Four bytes that are not all digits are refused. -/
private theorem hexWord_of_not_digit (h : ¬b.length < 4)
    (hdigit : ∃ c ∈ b.take 4, hexValue? c = none) :
    hexWord b = fail .invalidEscape (b.drop 4) := by
  match b with
  | [] => exact absurd (by decide) h
  | [_] => exact absurd (by simp) h
  | [_, _] => exact absurd (by simp) h
  | [_, _, _] => exact absurd (by simp) h
  | x :: y :: z :: w :: rest =>
    rw [hexWord]
    split
    · rename_i hx hy hz hw
      obtain ⟨c, hc, hnone⟩ := hdigit
      simp only [List.take_succ_cons, List.take_zero, List.mem_cons, List.not_mem_nil,
        or_false] at hc
      rcases hc with rfl | rfl | rfl | rfl
      · cases hx.symm.trans hnone
      · cases hy.symm.trans hnone
      · cases hz.symm.trans hnone
      · cases hw.symm.trans hnone
    · rfl

/-- Digits leave a walk inside a string where it is. -/
private theorem leads_digits (h : ∀ c ∈ b, hexValue? c ≠ none) :
    Leads (inside depth) (inside depth) b := by
  induction b with
  | nil => exact .refl _
  | cons c rest ih =>
    obtain ⟨hc, hrest⟩ := List.forall_mem_cons.1 h
    obtain ⟨n, hn⟩ := Option.ne_none_iff_exists'.1 hc
    have hne := ne_of_hexValue?_eq_some hn
    exact .cons (fun _ => step_inside_of_ne hne.1 hne.2) (ih hrest)

variable {tail : Bytes}

/-- As long as digits of the escape are missing the reader decides nothing. -/
theorem Reaches.read_eq_incomplete (h : Reaches (outside 0) (reader maxDepth).run front)
    (htail : tail.length < 4) : read (front ++ 0x5C :: 0x75 :: tail) = .incomplete := by
  obtain ⟨k, hreads⟩ := h.reads
  rw [read, hreads, hexWord_eq_incomplete_iff.2 htail]
  rfl

/-- Of the four bytes that stand for digits none may be anything else. -/
theorem Reaches.read_eq_failed (h : Reaches (outside 0) (reader maxDepth).run front)
    (htail : ¬tail.length < 4) (hdigit : ∃ c ∈ tail.take 4, hexValue? c = none) :
    ∃ e, read (front ++ 0x5C :: 0x75 :: tail) = .failed e ∧ e.fault = .invalidEscape := by
  obtain ⟨k, hreads⟩ := h.reads
  rw [read, hreads, hexWord_of_not_digit htail hdigit]
  exact ⟨_, rfl, rfl⟩

/-- **Where the reader runs out of bytes and the walk has come to the end of the message**, fewer
than four bytes are there for the digits of an escape, and one of them is no digit. -/
theorem exists_reaches (h : read b = .incomplete) (hclosed : ¬Open (outside 0) b) :
    ∃ front tail, b = front ++ 0x5C :: 0x75 :: tail ∧ tail.length < 4 ∧
      (∃ c ∈ tail, hexValue? c = none) ∧ Reaches (outside 0) (reader maxDepth).run front := by
  obtain hopen | ⟨front, tail, rfl, htail, hreaches⟩ :=
    halts_reader maxDepth 0 b (Reading.mapError_eq_incomplete_iff.1 h)
  · exact absurd hopen hclosed
  refine ⟨front, tail, rfl, htail, ?_, hreaches⟩
  by_contra hdigits
  obtain ⟨depth, hfront⟩ := hreaches.leads
  have htail : Leads (inside depth) (inside depth) tail :=
    leads_digits fun c hc hnone => hdigits ⟨c, hc, hnone⟩
  exact hclosed (hfront.isOpen ⟨_, .cons (fun _ => step_inside_backslash)
    (.cons (fun _ => step_behind) htail)⟩)

end Json

end ForwardIntake
