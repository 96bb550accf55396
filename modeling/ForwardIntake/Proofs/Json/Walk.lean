import ForwardIntake.Json.Reader
import ForwardIntake.Proofs.Frame.Brackets
import ForwardIntake.Proofs.Wire.Reading

/-!
# Reading JSON and walking over it

A walk over brackets knows nothing of JSON but strings and brackets.  Still it is at the right place
whenever a part of JSON text was read: `Follows s path peeks f b` says so of the way of reading `f`
at the front of `b`, the walk being at `s` there.

* Where a value is read, the bytes that were read are a `path` of the walk, and they alone decide on
  the value; if `f` peeks, then so does the byte that follows.
* Where a fault is found, the same fault is found however the bytes go on, or the walk has not come
  to the end of the message either (`Open`).  The latter happens to a number at the very end of a
  buffer, which may be too large only until its exponent has arrived.

Ways of reading are put together by `bind`, `cons` and `after`, and so are the facts about them.
-/

namespace ForwardIntake

namespace Json

open ForwardIntake.Frame ForwardIntake.Frame.BracketWalk

/-! ### Failures -/

/-- The failure with more bytes behind those that are unread. -/
def Failure.extend (failure : Failure) (more : Bytes) : Failure :=
  { failure with unread := failure.unread ++ more }

/-- More bytes behind those that are unread, in two pieces. -/
theorem Failure.extend_extend (failure : Failure) (more rest : Bytes) :
    (failure.extend more).extend rest = failure.extend (more ++ rest) := by
  simp only [extend, List.append_assoc]

/-- A failure keeps its place when more bytes arrive. -/
theorem Failure.locate_extend (failure : Failure) (whole more : Bytes) :
    (failure.extend more).locate (whole ++ more) = failure.locate whole := by
  have hlength : (whole ++ more).length - (failure.unread ++ more).length =
      whole.length - failure.unread.length := by
    rw [List.length_append, List.length_append, Nat.add_sub_add_right]
  have htake : (whole ++ more).take (whole.length - failure.unread.length) =
      whole.take (whole.length - failure.unread.length) :=
    List.take_append_of_le_length (Nat.sub_le _ _)
  simp only [locate, extend, hlength, htake]

/-! ### Following a way of reading -/

variable {α β : Type} {s s' : Nat → BracketWalk} {path path' : Bytes → Prop} {peeks : Bool}
  {f g : Bytes → Reading Failure α} {b front rest : Bytes}

/-- The walk keeps up with a way of reading at the front of some bytes. -/
structure Follows (s : Nat → BracketWalk) (path : Bytes → Prop) (peeks : Bool)
    (f : Bytes → Reading Failure α) (b : Bytes) : Prop where
  done : ∀ {v : α} {rest : Bytes}, f b = .done v rest →
    ∃ front, b = front ++ rest ∧ path front ∧
      ∀ rest', (peeks = true → rest'.head? = rest.head?) → f (front ++ rest') = .done v rest'
  failed : ∀ {failure : Failure}, f b = .failed failure →
    (∀ more, f (b ++ more) = .failed (failure.extend more)) ∨ Open s b

namespace Follows

/-- Where bytes are missing nothing was read and nothing decided. -/
theorem of_incomplete (h : f b = .incomplete) : Follows s path peeks f b := by
  constructor
  · intro v rest hdone
    rw [h] at hdone
    cases hdone
  · intro failure hfailed
    rw [h] at hfailed
    cases hfailed

/-- A fault that stays whatever follows. -/
theorem of_failed {failure : Failure} (h : ∀ more, f (b ++ more) = .failed (failure.extend more)) :
    Follows s path peeks f b := by
  have hfailed := h []
  rw [List.append_nil] at hfailed
  constructor
  · intro v rest hdone
    rw [hfailed] at hdone
    cases hdone
  · intro failure' hfailed'
    rw [hfailed, Reading.failed.injEq] at hfailed'
    refine .inl fun more => ?_
    rw [h, ← hfailed', Failure.extend_extend, List.nil_append]

/-- Nothing needs to be read. -/
theorem pure (v : α) (b : Bytes) : Follows s (Leads s s) peeks (.done v) b := by
  constructor
  · intro w rest hdone
    cases hdone
    exact ⟨[], rfl, .refl s, fun _ _ => rfl⟩
  · intro failure hfailed
    cases hfailed

/-- A fault that is found without reading anything. -/
theorem fail (fault : Fault) (b : Bytes) :
    Follows s path peeks (Json.fail fault : Bytes → Reading Failure α) b := by
  have hfailed : ∀ more, (Json.fail fault (b ++ more) : Reading Failure α) =
      .failed (Failure.extend ⟨fault, b⟩ more) := fun _ => rfl
  exact .of_failed hfailed

/-- A fault that is found in the first byte. -/
theorem fail_behind {c : UInt8} {fault : Fault}
    (heq : ∀ rest', f (c :: rest') = Json.fail fault rest') :
    Follows s path peeks f (c :: rest) := by
  have hfailed : ∀ more, f (c :: rest ++ more) = .failed (Failure.extend ⟨fault, rest⟩ more) :=
    fun more => heq (rest ++ more)
  exact .of_failed hfailed

/-- A choice that does not depend on the bytes. -/
theorem ite {p : Prop} [Decidable p] (hf : p → Follows s path peeks f b)
    (hg : ¬p → Follows s path peeks g b) :
    Follows s path peeks (fun b => if p then f b else g b) b := by
  by_cases h : p
  · simpa only [if_pos h] using hf h
  · simpa only [if_neg h] using hg h

/-- At the end of the bytes nothing is read and nothing is decided. -/
theorem nil (h : ∀ {v : α} {rest : Bytes}, f [] = .done v rest → rest.length ≤ 0) :
    Follows s (Leads s s) true f [] := by
  constructor
  · intro v rest hdone
    obtain rfl := List.eq_nil_of_length_eq_zero (Nat.le_zero.1 (h hdone))
    refine ⟨[], rfl, .refl s, fun rest' hhead => ?_⟩
    obtain rfl := List.head?_eq_none_iff.1 (hhead rfl)
    exact hdone
  · exact fun _ => .inr ⟨s, .refl s⟩

/-- What is known of the bytes read may be weakened. -/
theorem mono (h : Follows s path peeks f b) (hpath : ∀ {front}, path front → path' front) :
    Follows s path' true f b := by
  refine ⟨fun hdone => ?_, h.failed⟩
  obtain ⟨front, hb, hfront, hsame⟩ := h.done hdone
  exact ⟨front, hb, hpath hfront, fun rest' hhead => hsame rest' fun _ => hhead rfl⟩

/-- What is done with the value does not matter to the walk. -/
theorem map {k : α → β} (h : Follows s path peeks f b) :
    Follows s path peeks (fun b => (f b).map k) b := by
  constructor
  · intro w rest hdone
    obtain ⟨v, hv, rfl⟩ := Reading.map_eq_done_iff.1 hdone
    obtain ⟨front, hb, hfront, hsame⟩ := h.done hv
    refine ⟨front, hb, hfront, fun rest' hhead => ?_⟩
    rw [hsame rest' hhead, Reading.map_done]
  · intro failure hfailed
    refine (h.failed (Reading.map_eq_failed_iff.1 hfailed)).imp_left fun hsame more => ?_
    rw [hsame, Reading.map_failed]

/-- Some bytes are passed over and `g` goes on behind them, having seen the next byte at most. -/
theorem after (hfront : Leads s s' front)
    (heq : ∀ rest', rest'.head? = rest.head? → f (front ++ rest') = g rest')
    (hg : Follows s' path true g rest)
    (hpath : ∀ {y}, path y → path' (front ++ y)) : Follows s path' true f (front ++ rest) := by
  constructor
  · intro v unread hdone
    rw [heq rest rfl] at hdone
    obtain ⟨y, rfl, hy, hsame⟩ := hg.done hdone
    refine ⟨front ++ y, (List.append_assoc ..).symm, hpath hy, fun rest' hhead => ?_⟩
    have hnext : (y ++ rest').head? = (y ++ unread).head? := by
      rw [List.head?_append, List.head?_append, hhead rfl]
    rw [List.append_assoc, heq _ hnext, hsame rest' hhead]
  · intro failure hfailed
    rw [heq rest rfl] at hfailed
    cases rest with
    -- `g` has seen that no byte follows, so its failure is not settled
    | nil => exact .inr (hfront.isOpen ⟨s', .refl s'⟩)
    | cons c tail =>
      refine (hg.failed hfailed).imp (fun hsame more => ?_) hfront.isOpen
      rw [List.append_assoc, heq (c :: tail ++ more) rfl, hsame]

/-- One byte is passed over and `g` goes on behind it. -/
theorem cons {c : UInt8} (hstep : ∀ pos, (s pos).step c = (s' (pos + 1), false))
    (heq : ∀ rest', f (c :: rest') = g rest') (hg : Follows s' path peeks g rest)
    (hpath : ∀ {y}, path y → path' (c :: y)) : Follows s path' peeks f (c :: rest) := by
  constructor
  · intro v unread hdone
    rw [heq] at hdone
    obtain ⟨y, rfl, hy, hsame⟩ := hg.done hdone
    refine ⟨c :: y, rfl, hpath hy, fun rest' hhead => ?_⟩
    rw [List.cons_append, heq, hsame rest' hhead]
  · intro failure hfailed
    rw [heq] at hfailed
    refine (hg.failed hfailed).imp (fun hsame more => ?_) (Leads.isOpen (.single hstep))
    rw [List.cons_append, heq, hsame]

/-- Two ways of reading that agree on all bytes beginning with `c`. -/
theorem of_head {c : UInt8} (heq : ∀ rest', f (c :: rest') = g (c :: rest'))
    (hg : Follows s path true g (c :: rest)) : Follows s path true f (c :: rest) := by
  have hafter : Follows s path true f ([] ++ c :: rest) := by
    refine after (.refl s) (fun rest' hhead => ?_) hg id
    obtain ⟨tail, rfl⟩ := List.head?_eq_some_iff.1 hhead
    exact heq tail
  exact hafter

/-- One way of reading goes on where another one has stopped. -/
theorem bind {k : α → Bytes → Reading Failure β} {again : Bool}
    (hf : Follows s (Leads s s') peeks f b)
    (hk : ∀ v rest, f b = .done v rest → Follows s' path again (k v) rest)
    (hpath : ∀ {x y}, Leads s s' x → path y → path' (x ++ y))
    (hnext : peeks = true → again = true ∨ ∀ y, path y → y ≠ []) :
    Follows s path' again (fun b => (f b).bind k) b := by
  constructor
  · intro w unread hdone
    obtain ⟨v, mid, hv, hw⟩ := Reading.bind_eq_done_iff.1 hdone
    obtain ⟨x, rfl, hx, hsame⟩ := hf.done hv
    obtain ⟨y, rfl, hy, hsame'⟩ := (hk v mid hv).done hw
    refine ⟨x ++ y, (List.append_assoc ..).symm, hpath hx hy, fun rest' hhead => ?_⟩
    have hmid : peeks = true → (y ++ rest').head? = (y ++ unread).head? := by
      intro hpeeks
      rw [List.head?_append, List.head?_append]
      -- the byte that `f` has seen is the one that `k` saw, or one that `k` has read
      rcases hnext hpeeks with hagain | hne
      · rw [hhead hagain]
      · rw [List.head?_eq_some_head (hne y hy)]
        rfl
    rw [List.append_assoc, hsame _ hmid]
    exact hsame' rest' hhead
  · intro failure hfailed
    rcases Reading.bind_eq_failed_iff.1 hfailed with hv | ⟨v, mid, hv, hrest⟩
    · refine (hf.failed hv).imp_left fun hsame more => ?_
      rw [hsame, Reading.bind_failed]
    · obtain ⟨x, rfl, hx, hsame⟩ := hf.done hv
      cases mid with
      | nil => exact .inr (hx.isOpen ⟨s', .refl s'⟩)
      | cons c tail =>
        refine ((hk v _ hv).failed hrest).imp (fun hsame' more => ?_) hx.isOpen
        rw [List.append_assoc, hsame (c :: tail ++ more) fun _ => rfl]
        exact hsame' more

end Follows

/-- The walk is outside of strings before and behind what is read, and the same brackets are
open. -/
abbrev Passes (depth : Nat) (f : Bytes → Reading Failure α) (b : Bytes) : Prop :=
  Follows (outside depth) (Leads (outside depth) (outside depth)) true f b

/-- One byte that the walk takes no notice of is passed over. -/
theorem Passes.cons {depth : Nat} {c : UInt8} (hmark : isMark c = false)
    (heq : ∀ rest', f (c :: rest') = g rest') (hg : Passes depth g rest) :
    Passes depth f (c :: rest) :=
  Follows.cons (fun _ => step_outside_of_not_mark hmark) heq hg
    (Leads.cons fun _ => step_outside_of_not_mark hmark)

/-! ### Space -/

/-- A walk over brackets takes no notice of space. -/
theorem isMark_of_isSpace {c : UInt8} (h : isSpace c = true) : isMark c = false := by
  simp only [isSpace, Bool.or_eq_true, beq_iff_eq] at h
  rcases h with ((rfl | rfl) | rfl) | rfl <;> rfl

/-- The space in front and what is left behind it make up the bytes. -/
theorem takeWhile_append_skipSpace (b : Bytes) : b.takeWhile isSpace ++ skipSpace b = b :=
  List.takeWhile_append_dropWhile

/-- The walk passes over space. -/
theorem leads_space (depth : Nat) (b : Bytes) :
    Leads (outside depth) (outside depth) (b.takeWhile isSpace) :=
  leads_outside depth fun _ hc => isMark_of_isSpace (List.mem_takeWhile_imp hc)

/-- Space in front is skipped whatever follows it. -/
theorem skipSpace_append_of_space {space : Bytes} (h : ∀ c ∈ space, isSpace c = true)
    (b : Bytes) : skipSpace (space ++ b) = skipSpace b := by
  rw [skipSpace, List.dropWhile_append_of_pos h]
  rfl

/-- Nothing is skipped where there is no space. -/
theorem skipSpace_cons {c : UInt8} (h : isSpace c = false) (rest : Bytes) :
    skipSpace (c :: rest) = c :: rest :=
  List.dropWhile_cons_of_neg (by rw [h]; exact Bool.false_ne_true)

/-- What is left behind the space does not begin with space. -/
theorem isSpace_of_skipSpace_eq_cons {c : UInt8} {rest : Bytes} (h : skipSpace b = c :: rest) :
    isSpace c = false := by
  have hfirst := List.head?_dropWhile_not isSpace b
  rw [skipSpace] at h
  rwa [h] at hfirst

/-- Space before what is read. -/
theorem Follows.space {depth : Nat} (hspace : ∀ b, f (skipSpace b) = f b)
    (h : Follows (outside depth) path peeks f (skipSpace b))
    (hpath : ∀ {x y}, Leads (outside depth) (outside depth) x → path y → path' (x ++ y)) :
    Follows (outside depth) path' peeks f b := by
  have hpass : ∀ rest, f (b.takeWhile isSpace ++ rest) = f rest := by
    intro rest
    rw [← hspace, skipSpace_append_of_space fun c hc => List.mem_takeWhile_imp hc, hspace]
  have hb := takeWhile_append_skipSpace b
  have hlead := leads_space depth b
  constructor
  · intro v rest hdone
    rw [← hspace] at hdone
    obtain ⟨y, hy, hpy, hsame⟩ := h.done hdone
    refine ⟨b.takeWhile isSpace ++ y, by rw [List.append_assoc, ← hy, hb], hpath hlead hpy, ?_⟩
    intro rest' hhead
    rw [List.append_assoc, hpass, hsame rest' hhead]
  · intro failure hfailed
    rw [← hspace] at hfailed
    rw [← hb]
    refine (h.failed hfailed).imp (fun hsame more => ?_) hlead.isOpen
    rw [List.append_assoc, hpass, hsame]

end Json

end ForwardIntake
