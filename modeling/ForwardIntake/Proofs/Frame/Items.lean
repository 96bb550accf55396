import ForwardIntake.Frame.Items
import Mathlib

/-!
# What a walk over items comes to

The walk over MessagePack counts in words that stop at the greatest word.  `ItemWalk.exact` is the
same walk in numbers without a bound, and on every buffer below `2 ^ 63` bytes both find the same
frame (`advance_eq_exact`): a count that stopped at the greatest word could not be paid off by the
bytes that are left, whatever it would have been otherwise.

Facts about the exact walk:

* a bound that it names lies beyond the buffer (`lt_of_exact_eq_incomplete`);
* however the buffer goes on, the walk then reaches at least that far (`le_reach_exact_append`).

The walk itself can be broken off and resumed once the buffer has grown
(`advance_append_of_incomplete`), and a frame once found is final (`advance_append_of_found`).
-/

namespace ForwardIntake

namespace Bytes

/-- A number of some bytes is below the count of such numbers. -/
private theorem toNat_lt_wordCount (b : Bytes) : toNat b < wordCount b.length := by
  induction b using List.reverseRecOn with
  | nil => exact Nat.one_pos
  | append_singleton b byte ih =>
    have hbyte := byte.toNat_lt
    rw [toNat_append_singleton, List.length_append, List.length_singleton, wordCount]
    omega

/-- More bytes make more numbers. -/
private theorem wordCount_mono {v w : Nat} (h : v ≤ w) : wordCount v ≤ wordCount w := by
  induction h with
  | refl => exact Nat.le_refl _
  | step _ ih =>
    rw [wordCount]
    omega

/-- A header that is there stays when more bytes follow. -/
theorem split?_append_of_some {n : Nat} {b front rest : Bytes} (more : Bytes)
    (h : split? n b = some (front, rest)) : split? n (b ++ more) = some (front, rest ++ more) := by
  obtain ⟨rfl, rfl⟩ := append_of_split? h
  rw [List.append_assoc, split?_append]

/-- Where the front of a byte string ends, its drops go on in what follows. -/
private theorem drop_add_succ {b tail : Bytes} {pos : Nat} {marker : UInt8}
    (h : b.drop pos = marker :: tail) (k : Nat) : b.drop (pos + (1 + k)) = tail.drop k := by
  rw [← List.drop_drop, h, Nat.add_comm, List.drop_succ_cons]

/-- Behind the end of the buffer there is no marker. -/
theorem lt_length_of_drop {b tail : Bytes} {pos : Nat} {marker : UInt8}
    (h : b.drop pos = marker :: tail) : pos < b.length :=
  List.length_lt_of_drop_ne_nil (by rw [h]; exact List.cons_ne_nil _ _)

/-- A marker stays in its place when more bytes follow. -/
theorem drop_append_of_cons {b tail : Bytes} {pos : Nat} {marker : UInt8}
    (h : b.drop pos = marker :: tail) (more : Bytes) :
    (b ++ more).drop pos = marker :: (tail ++ more) := by
  rw [List.drop_append_of_le_length (Nat.le_of_lt (lt_length_of_drop h)), h, List.cons_append]

/-- A header is missing if and only if the bytes are too few for it. -/
theorem split?_eq_none_iff {n : Nat} {b : Bytes} : split? n b = none ↔ b.length < n := by
  rw [split?_eq]
  split <;> simp <;> omega

end Bytes

namespace Frame

/-- Half the words are in reach. -/
theorem le_wordMax_of_lt {n : Nat} (small : n < 2 ^ 63) : n ≤ wordMax := by
  rw [wordMax]
  omega

/-! ### Items -/

/-- A header with a length has at most four bytes of length and one more byte behind its marker. -/
private theorem form_eq_sized {marker width extra : Nat} {measure : Measure}
    (h : form marker = .sized width extra measure) : width ≤ 4 ∧ extra ≤ 1 := by
  unfold form at h
  repeat' split at h
  all_goals simp only [Form.sized.injEq, reduceCtorEq] at h
  all_goals omega

/-- No item of fixed size is longer than the longest short string. -/
private theorem form_eq_fixed {marker bytes : Nat} (h : form marker = .fixed bytes) :
    bytes ≤ 31 := by
  unfold form at h
  repeat' split at h
  all_goals simp only [Form.fixed.injEq, reduceCtorEq] at h
  all_goals omega

/-- No short container holds more items than a short map. -/
private theorem form_eq_container {marker items : Nat} (h : form marker = .container items) :
    items ≤ 30 := by
  unfold form at h
  repeat' split at h
  all_goals simp only [Form.container.injEq, reduceCtorEq] at h
  all_goals omega

/-- The item whose header is all there, `header` bytes behind the marker, with the length `n`. -/
def Measure.item (header n : Nat) : Measure → Item
  | .bytes => .known (header + n) 0
  | .items => .known header n
  | .pairs => .known header (2 * n)

/-- A header that is there tells what follows it. -/
theorem item_of_split? {marker : UInt8} {rest header after : Bytes} {width extra : Nat}
    {measure : Measure} (hform : form marker.toNat = .sized width extra measure)
    (hsplit : Bytes.split? (width + extra) rest = some (header, after)) :
    item marker rest = measure.item (width + extra) (Bytes.toNat (header.take width)) := by
  cases measure <;> simp only [item, hform, hsplit, Measure.item]

/-- A header that is not there is asked for. -/
theorem item_of_split?_eq_none {marker : UInt8} {rest : Bytes} {width extra : Nat}
    {measure : Measure} (hform : form marker.toNat = .sized width extra measure)
    (hsplit : Bytes.split? (width + extra) rest = none) :
    item marker rest = .header (1 + width + extra) := by
  simp only [item, hform, hsplit]

/-- A header that is not all there belongs to a form with a length. -/
theorem exists_form_of_item_eq_header {marker : UInt8} {rest : Bytes} {length : Nat}
    (h : item marker rest = .header length) :
    ∃ width extra measure, form marker.toNat = .sized width extra measure ∧
      rest.length < width + extra ∧ length = 1 + width + extra := by
  cases hform : form marker.toNat with
  | fixed bytes => simp only [item, hform, reduceCtorEq] at h
  | container items => simp only [item, hform, reduceCtorEq] at h
  | reserved => simp only [item, hform, reduceCtorEq] at h
  | sized width extra measure =>
    cases hsplit : Bytes.split? (width + extra) rest with
    | none =>
      rw [item_of_split?_eq_none hform hsplit, Item.header.injEq] at h
      exact ⟨width, extra, measure, rfl, Bytes.split?_eq_none_iff.1 hsplit, h.symm⟩
    | some found =>
      rw [item_of_split? hform hsplit] at h
      cases measure <;> cases h

/-- More of a header is owed than is there, and it has six bytes at most. -/
theorem length_of_item_eq_header {marker : UInt8} {rest : Bytes} {length : Nat}
    (h : item marker rest = .header length) : rest.length + 1 < length ∧ length ≤ 6 := by
  obtain ⟨width, extra, measure, hform, hlt, rfl⟩ := exists_form_of_item_eq_header h
  have := form_eq_sized hform
  omega

/-- However the buffer goes on behind a header that is cut off, the item takes at least that
header. -/
private theorem item_append_of_header {marker : UInt8} {rest : Bytes} {length : Nat}
    (h : item marker rest = .header length) (more : Bytes) :
    item marker (rest ++ more) = .header length ∨
      ∃ bytes items, item marker (rest ++ more) = .known bytes items ∧ length ≤ 1 + bytes := by
  obtain ⟨width, extra, measure, hform, -, rfl⟩ := exists_form_of_item_eq_header h
  cases hsplit : Bytes.split? (width + extra) (rest ++ more) with
  | none => exact .inl (item_of_split?_eq_none hform hsplit)
  | some found =>
    rw [item_of_split? hform hsplit]
    refine .inr ?_
    cases measure with
    | bytes => exact ⟨_, _, rfl, by omega⟩
    | items => exact ⟨_, _, rfl, by omega⟩
    | pairs => exact ⟨_, _, rfl, by omega⟩

/-- What lies behind a header that is all there has no influence on the item. -/
private theorem item_append {marker : UInt8} {rest : Bytes}
    (h : ∀ length, item marker rest ≠ .header length) (more : Bytes) :
    item marker (rest ++ more) = item marker rest := by
  cases hform : form marker.toNat with
  | fixed bytes => simp only [item, hform]
  | container items => simp only [item, hform]
  | reserved => simp only [item, hform]
  | sized width extra measure =>
    cases hsplit : Bytes.split? (width + extra) rest with
    | none => exact absurd (item_of_split?_eq_none hform hsplit) (h _)
    | some found =>
      obtain ⟨header, after⟩ := found
      rw [item_of_split? hform hsplit,
        item_of_split? hform (Bytes.split?_append_of_some more hsplit)]

/-- An item takes fewer than `2 ^ 33` bytes and announces fewer than `2 ^ 33` items: a length on the
wire has four bytes at most. -/
theorem lt_of_item_eq_known {marker : UInt8} {rest : Bytes} {bytes items : Nat}
    (h : item marker rest = .known bytes items) : bytes < 2 ^ 33 ∧ items < 2 ^ 33 := by
  cases hform : form marker.toNat with
  | fixed n =>
    have := form_eq_fixed hform
    simp only [item, hform, Item.known.injEq] at h
    omega
  | container n =>
    have := form_eq_container hform
    simp only [item, hform, Item.known.injEq] at h
    omega
  | reserved => simp only [item, hform, reduceCtorEq] at h
  | sized width extra measure =>
    obtain ⟨hwidth, hextra⟩ := form_eq_sized hform
    cases hsplit : Bytes.split? (width + extra) rest with
    | none => simp only [item, hform, hsplit, reduceCtorEq] at h
    | some found =>
      obtain ⟨header, after⟩ := found
      have hlt : Bytes.toNat (header.take width) < 2 ^ 32 :=
        calc Bytes.toNat (header.take width)
            < Bytes.wordCount (header.take width).length := Bytes.toNat_lt_wordCount _
          _ ≤ Bytes.wordCount 4 := Bytes.wordCount_mono (by rw [List.length_take]; omega)
          _ = 2 ^ 32 := rfl
      rw [item_of_split? hform hsplit] at h
      cases measure <;> simp only [Measure.item, Item.known.injEq] at h <;> omega

namespace ItemWalk

/-! ### The walk in numbers without a bound -/

/-- The frame that a walk finds when it counts without a bound. -/
def exact (size pos pending : Nat) (rest : Bytes) : Frame :=
  if pending = 0 then
    if size < pos then .incomplete pos else .complete pos
  else
    match rest with
    | [] => .incomplete (pos + 1)
    | marker :: tail =>
      match item marker tail with
      | .known bytes items => exact size (pos + (1 + bytes)) (pending - 1 + items) (tail.drop bytes)
      | .header length => .incomplete (pos + length)
      | .reserved => .invalid
termination_by rest.length
decreasing_by simp only [List.length_drop, List.length_cons]; omega

/-- With nothing owed the frame is complete, once its bytes are there. -/
theorem exact_zero (size pos : Nat) (rest : Bytes) :
    exact size pos 0 rest = if size < pos then .incomplete pos else .complete pos := by
  rw [exact.eq_def, if_pos rfl]

/-- With an item owed and no bytes, one more byte is asked for. -/
theorem exact_nil (size pos n : Nat) : exact size pos (n + 1) [] = .incomplete (pos + 1) := by
  rw [exact.eq_def, if_neg (Nat.succ_ne_zero n)]

/-- An item that is owed is settled by what its marker says. -/
theorem exact_cons (size pos n : Nat) (marker : UInt8) (tail : Bytes) :
    exact size pos (n + 1) (marker :: tail) =
      match item marker tail with
      | .known bytes items => exact size (pos + (1 + bytes)) (n + items) (tail.drop bytes)
      | .header length => .incomplete (pos + length)
      | .reserved => .invalid := by
  rw [exact.eq_def, if_neg (Nat.succ_ne_zero n)]
  rfl

/-- A known item is passed over, and the items inside of it are owed. -/
theorem exact_of_known {size pos n bytes items : Nat} {marker : UInt8} {tail : Bytes}
    (h : item marker tail = .known bytes items) :
    exact size pos (n + 1) (marker :: tail) =
      exact size (pos + (1 + bytes)) (n + items) (tail.drop bytes) := by
  rw [exact_cons, h]

/-- Where `rest` lies in a buffer of `size` bytes: from `pos` to its end, or, when an item reaches
beyond the end, nowhere. -/
def Placed (size pos : Nat) (rest : Bytes) : Prop :=
  pos + rest.length = size ∨ rest = [] ∧ size ≤ pos

/-- The rest of the buffer reaches to its end. -/
theorem Placed.size_eq {size pos : Nat} {marker : UInt8} {tail : Bytes}
    (h : Placed size pos (marker :: tail)) : pos + (tail.length + 1) = size := by
  rcases h with h | ⟨h, -⟩
  · exact h
  · cases h

/-- Behind a known item stands the rest of the buffer. -/
theorem Placed.drop {size pos : Nat} {marker : UInt8} {tail : Bytes}
    (h : Placed size pos (marker :: tail)) (bytes : Nat) :
    Placed size (pos + (1 + bytes)) (tail.drop bytes) := by
  rcases h with h | ⟨h, -⟩
  · simp only [List.length_cons] at h
    rcases Nat.lt_or_ge tail.length bytes with hlt | hge
    · exact .inr ⟨List.drop_eq_nil_of_le (Nat.le_of_lt hlt), by omega⟩
    · exact .inl (by rw [List.length_drop]; omega)
  · cases h

/-- **The walk and the exact walk find the same frame** in a buffer below `2 ^ 63` bytes.  Their
counts agree, or both exceed the bytes that are left. -/
theorem advance_eq_exact {size pos pending owed : Nat} {rest : Bytes} (small : size < 2 ^ 63)
    (placed : Placed size pos rest) (near : pos < 2 ^ 63 + 2 ^ 34)
    (counts : pending = owed ∨ rest.length < pending ∧ rest.length < owed) :
    (advance size pos pending rest).1 = exact size pos owed rest := by
  fun_induction advance size pos pending rest generalizing owed with
  | case1 pos rest =>
    obtain rfl : owed = 0 := by omega
    rw [exact_zero]
  | case2 pos pending hpending =>
    obtain ⟨n, rfl⟩ := Nat.exists_eq_succ_of_ne_zero (show owed ≠ 0 by omega)
    rw [exact_nil, satAdd_of_le (by rw [wordMax]; omega)]
  | case3 pos pending hpending marker tail bytes items hitem ih =>
    obtain ⟨n, rfl⟩ := Nat.exists_eq_succ_of_ne_zero (show owed ≠ 0 by omega)
    obtain ⟨hbytes, -⟩ := lt_of_item_eq_known hitem
    have inside := placed.size_eq
    rw [exact_of_known hitem]
    rw [satAdd_of_le (by rw [wordMax]; omega)] at ih ⊢
    refine ih (placed.drop bytes) (by omega) ?_
    -- an item takes at least one byte, so counts beyond the bytes that are left stay beyond them
    simp only [List.length_cons] at counts
    simp only [List.length_drop, satAdd, wordMax]
    omega
  | case4 pos pending hpending marker tail length hitem =>
    obtain ⟨n, rfl⟩ := Nat.exists_eq_succ_of_ne_zero (show owed ≠ 0 by omega)
    have inside := placed.size_eq
    have hlength := length_of_item_eq_header hitem
    rw [exact_cons, hitem, satAdd_of_le (by rw [wordMax]; omega)]
  | case5 pos pending hpending marker tail hitem =>
    obtain ⟨n, rfl⟩ := Nat.exists_eq_succ_of_ne_zero (show owed ≠ 0 by omega)
    rw [exact_cons, hitem]

/-! ### How far the walk reaches -/

/-- A bound that the walk names lies beyond the buffer. -/
theorem lt_of_exact_eq_incomplete {size pos pending needed : Nat} {rest : Bytes}
    (placed : Placed size pos rest) (h : exact size pos pending rest = .incomplete needed) :
    size < needed := by
  fun_induction exact size pos pending rest with
  | case1 pos rest hlt =>
    cases h
    exact hlt
  | case2 => cases h
  | case3 pos pending hpending =>
    cases h
    rcases placed with hsize | ⟨-, hle⟩
    · simp only [List.length_nil] at hsize
      omega
    · omega
  | case4 pos pending hpending marker tail bytes items hitem ih => exact ih (placed.drop bytes) h
  | case5 pos pending hpending marker tail length hitem =>
    cases h
    have := placed.size_eq
    have := length_of_item_eq_header hitem
    omega
  | case6 => cases h

/-- A frame that the walk finds lies inside the buffer. -/
theorem le_of_exact_eq_complete {size pos pending length : Nat} {rest : Bytes}
    (h : exact size pos pending rest = .complete length) : length ≤ size := by
  fun_induction exact size pos pending rest with
  | case1 => cases h
  | case2 pos rest hle =>
    cases h
    exact Nat.le_of_not_lt hle
  | case3 => cases h
  | case4 pos pending hpending marker tail bytes items hitem ih => exact ih h
  | case5 => cases h
  | case6 => cases h

end ItemWalk

/-- How many bytes there are at least when a frame is found, or is still looked for, in a buffer of
`size` bytes. -/
def reach (size : Nat) : Frame → Nat
  | .complete length => length
  | .incomplete needed => needed
  | .invalid => size

namespace ItemWalk

/-- The walk reaches at least its position, and beyond it when something is owed. -/
theorem le_reach_exact {size pos pending : Nat} {rest : Bytes} (placed : Placed size pos rest) :
    pos ≤ (exact size pos pending rest).reach size ∧
      (0 < pending → pos < (exact size pos pending rest).reach size) := by
  fun_induction exact size pos pending rest with
  | case1 pos rest hlt => exact ⟨Nat.le_refl _, fun h => absurd h (Nat.lt_irrefl 0)⟩
  | case2 pos rest hlt => exact ⟨Nat.le_refl _, fun h => absurd h (Nat.lt_irrefl 0)⟩
  | case3 pos pending hpending => exact ⟨Nat.le_succ _, fun _ => Nat.lt_succ_self _⟩
  | case4 pos pending hpending marker tail bytes items hitem ih =>
    have := (ih (placed.drop bytes)).1
    exact ⟨by omega, fun _ => by omega⟩
  | case5 pos pending hpending marker tail length hitem =>
    have := length_of_item_eq_header hitem
    simp only [reach]
    omega
  | case6 pos pending hpending marker tail hitem =>
    have := placed.size_eq
    simp only [reach]
    omega

/-- What is dropped stands ahead of the rest. -/
theorem placed_drop (b : Bytes) (pos : Nat) : Placed b.length pos (b.drop pos) := by
  rcases Nat.lt_or_ge b.length pos with hlt | hge
  · exact .inr ⟨List.drop_eq_nil_of_le (Nat.le_of_lt hlt), Nat.le_of_lt hlt⟩
  · exact .inl (by rw [List.length_drop]; omega)

/-- **Bounds are sound.**  When the walk asks for a buffer of `needed` bytes, then on every longer
buffer it reaches at least that far. -/
theorem le_reach_exact_append {b : Bytes} {pos pending needed : Nat} (more : Bytes)
    (h : exact b.length pos pending (b.drop pos) = .incomplete needed) :
    needed ≤ (exact (b ++ more).length pos pending ((b ++ more).drop pos)).reach
      (b ++ more).length := by
  generalize hrest : b.drop pos = rest at h
  fun_induction exact b.length pos pending rest with
  | case1 pos rest hlt =>
    cases h
    exact (le_reach_exact (placed_drop _ _)).1
  | case2 => cases h
  | case3 pos pending hpending =>
    cases h
    exact (le_reach_exact (placed_drop _ _)).2 (Nat.pos_of_ne_zero hpending)
  | case4 pos pending hpending marker tail bytes items hitem ih =>
    obtain ⟨n, rfl⟩ := Nat.exists_eq_succ_of_ne_zero hpending
    have hmore : item marker (tail ++ more) = .known bytes items := by
      rw [item_append (by simp [hitem]), hitem]
    have hdrop := Bytes.drop_append_of_cons hrest more
    rw [hdrop, exact_of_known hmore, ← Bytes.drop_add_succ hdrop]
    exact ih (Bytes.drop_add_succ hrest bytes) h
  | case5 pos pending hpending marker tail length hitem =>
    obtain ⟨n, rfl⟩ := Nat.exists_eq_succ_of_ne_zero hpending
    cases h
    have hdrop := Bytes.drop_append_of_cons hrest more
    rw [hdrop]
    -- with more bytes the header is cut off as before, or the item takes at least its header
    rcases item_append_of_header hitem more with hmore | ⟨bytes, items, hmore, hle⟩
    · rw [exact_cons, hmore]
      exact Nat.le_refl _
    · rw [exact_of_known hmore, ← Bytes.drop_add_succ hdrop]
      have hreach : pos + (1 + bytes) ≤ (exact (b ++ more).length (pos + (1 + bytes)) (n + items)
          ((b ++ more).drop (pos + (1 + bytes)))).reach (b ++ more).length :=
        (le_reach_exact (placed_drop (b ++ more) (pos + (1 + bytes)))).1
      omega
  | case6 => cases h

/-! ### Resuming a walk -/

/-- Behind an item the drops of a buffer go on in what follows the marker.  A position that stopped
at the greatest word lies behind the buffer, as it would if it had not stopped. -/
theorem drop_satAdd {b tail : Bytes} {pos : Nat} {marker : UInt8} (fits : b.length ≤ wordMax)
    (h : b.drop pos = marker :: tail) (k : Nat) : b.drop (satAdd pos (1 + k)) = tail.drop k := by
  rw [← Bytes.drop_add_succ h]
  rcases Nat.le_total (pos + (1 + k)) wordMax with hle | hge
  · rw [satAdd_of_le hle]
  · rw [satAdd, Nat.min_eq_right hge, List.drop_eq_nil_of_le fits,
      List.drop_eq_nil_of_le (Nat.le_trans fits hge)]

/-- Behind a known item the walk over a buffer goes on. -/
theorem advance_of_known {b tail : Bytes} {pos pending bytes items : Nat} {marker : UInt8}
    (fits : b.length ≤ wordMax) (hpending : pending ≠ 0) (hrest : b.drop pos = marker :: tail)
    (hitem : item marker tail = .known bytes items) :
    advance b.length pos pending (b.drop pos) =
      advance b.length (satAdd pos (1 + bytes)) (satAdd (pending - 1) items)
        (b.drop (satAdd pos (1 + bytes))) := by
  rw [drop_satAdd fits hrest, hrest, advance.eq_def, if_neg hpending]
  simp only [hitem]

/-- Behind an item that is known from a buffer, the walk over any buffer that continues it goes
on. -/
theorem advance_append_of_known {b tail more : Bytes} {pos pending bytes items : Nat}
    {marker : UInt8} (fits : (b ++ more).length ≤ wordMax) (hpending : pending ≠ 0)
    (hrest : b.drop pos = marker :: tail) (hitem : item marker tail = .known bytes items) :
    advance (b ++ more).length pos pending ((b ++ more).drop pos) =
      advance (b ++ more).length (satAdd pos (1 + bytes)) (satAdd (pending - 1) items)
        ((b ++ more).drop (satAdd pos (1 + bytes))) := by
  have hmore : item marker (tail ++ more) = .known bytes items := by
    rw [item_append (by simp [hitem]), hitem]
  exact advance_of_known fits hpending (Bytes.drop_append_of_cons hrest more) hmore

/-- **A walk that was broken off** at the end of a buffer goes on from there as if the buffer had
been longer from the start. -/
theorem advance_append_of_incomplete {b more : Bytes} {pos pending needed : Nat} {w : ItemWalk}
    (fits : (b ++ more).length ≤ wordMax)
    (h : advance b.length pos pending (b.drop pos) = (.incomplete needed, w)) :
    advance (b ++ more).length pos pending ((b ++ more).drop pos) =
      advance (b ++ more).length w.pos w.pending ((b ++ more).drop w.pos) := by
  have hb : b.length ≤ wordMax := by rw [List.length_append] at fits; omega
  -- the induction is on what the walk has before it, which has to be a variable
  generalize hrest : b.drop pos = rest at h
  fun_induction advance b.length pos pending rest with
  | case1 pos rest =>
    obtain ⟨-, rfl⟩ := Prod.mk.inj h
    rfl
  | case2 pos pending hpending =>
    obtain ⟨-, rfl⟩ := Prod.mk.inj h
    rfl
  | case3 pos pending hpending marker tail bytes items hitem ih =>
    rw [advance_append_of_known fits hpending hrest hitem]
    exact ih (drop_satAdd hb hrest bytes) h
  | case4 pos pending hpending marker tail length hitem =>
    obtain ⟨-, rfl⟩ := Prod.mk.inj h
    rfl
  | case5 => cases h

/-- **A frame once found is final.** -/
theorem advance_append_of_found {b more : Bytes} {pos pending : Nat}
    (fits : (b ++ more).length ≤ wordMax)
    (h : (advance b.length pos pending (b.drop pos)).1.isIncomplete = false) :
    (advance (b ++ more).length pos pending ((b ++ more).drop pos)).1 =
      (advance b.length pos pending (b.drop pos)).1 := by
  have hb : b.length ≤ wordMax := by rw [List.length_append] at fits; omega
  generalize hrest : b.drop pos = rest at h ⊢
  fun_induction advance b.length pos pending rest with
  | case1 pos rest =>
    rw [advance.eq_def, if_pos rfl]
    split at h
    · cases h
    · rw [if_neg (by rw [List.length_append]; omega), if_neg ‹_›]
  | case2 => cases h
  | case3 pos pending hpending marker tail bytes items hitem ih =>
    rw [advance_append_of_known fits hpending hrest hitem]
    exact ih (drop_satAdd hb hrest bytes) h
  | case4 => cases h
  | case5 pos pending hpending marker tail hitem =>
    have hmore : item marker (tail ++ more) = .reserved := by
      rw [item_append (by simp [hitem]), hitem]
    rw [Bytes.drop_append_of_cons hrest more, advance.eq_def, if_neg hpending]
    simp only [hmore]

end ItemWalk

end Frame

end ForwardIntake
