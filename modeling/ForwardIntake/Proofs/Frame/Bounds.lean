import ForwardIntake.Proofs.Frame.Scanner

/-!
# How far a buffer must grow

A bound that a walk names is kept by every buffer that has not grown that far yet
(`Scanner.frameOf_append_of_short`): behind a missing item, behind a header that is cut off and
inside of a payload nothing can be told before the bytes up to the bound are there.

The walk over MessagePack adds and subtracts words.  `ItemWalk.Visits` says at which places a walk
stands on its way, and each of them leads to the same frame (`ItemWalk.Visits.advance_eq`).  At
each of them all sums of a position and of what a header says are words (`ItemWalk.inWords`), so no
position stops at the greatest word, whatever the lengths and counts on the wire.
-/

namespace ForwardIntake

namespace Frame

namespace ItemWalk

/-! ### Buffers that are still too short -/

/-- The walk asks for no more bytes than a word can count. -/
private theorem le_wordMax_of_advance {size pos pending needed : Nat} {rest : Bytes}
    (hpos : pos ≤ wordMax) (h : (advance size pos pending rest).1 = .incomplete needed) :
    needed ≤ wordMax := by
  fun_induction advance size pos pending rest with
  | case1 pos rest =>
    simp only at h
    split at h
    · cases h
      exact hpos
    · cases h
  | case2 pos pending hpending =>
    cases h
    exact Nat.min_le_right _ _
  | case3 pos pending hpending marker tail bytes items hitem ih =>
    exact ih (Nat.min_le_right _ _) h
  | case4 pos pending hpending marker tail length hitem =>
    cases h
    exact Nat.min_le_right _ _
  | case5 => cases h

/-- A walk keeps its bound for as long as the buffer has not grown that far. -/
private theorem advance_append_of_short {b more : Bytes} {pos pending needed : Nat}
    (fits : (b ++ more).length ≤ wordMax) (short : (b ++ more).length < needed)
    (h : (advance b.length pos pending (b.drop pos)).1 = .incomplete needed) :
    (advance (b ++ more).length pos pending ((b ++ more).drop pos)).1 = .incomplete needed := by
  have hb : b.length ≤ wordMax := by rw [List.length_append] at fits; omega
  generalize hrest : b.drop pos = rest at h
  fun_induction advance b.length pos pending rest with
  | case1 pos rest =>
    simp only at h
    split at h
    · cases h
      rw [advance.eq_def, if_pos rfl, if_pos short]
    · cases h
  | case2 pos pending hpending =>
    cases h
    -- the next item is not there yet
    have hle : (b ++ more).length ≤ pos :=
      Nat.le_of_lt_succ (Nat.lt_of_lt_of_le short (Nat.min_le_left _ _))
    rw [List.drop_eq_nil_of_le hle, advance.eq_def, if_neg hpending]
  | case3 pos pending hpending marker tail bytes items hitem ih =>
    rw [advance_append_of_known fits hpending hrest hitem]
    exact ih (drop_satAdd hb hrest bytes) h
  | case4 pos pending hpending marker tail length hitem =>
    cases h
    -- the header is still cut off
    obtain ⟨width, extra, measure, hform, -, rfl⟩ := exists_form_of_item_eq_header hitem
    have hdrop := Bytes.drop_append_of_cons hrest more
    have hlength := congrArg List.length hdrop
    have hlt : (b ++ more).length < pos + (1 + width + extra) :=
      Nat.lt_of_lt_of_le short (Nat.min_le_left _ _)
    rw [List.length_drop, List.length_cons] at hlength
    have hmore : item marker (tail ++ more) = .header (1 + width + extra) :=
      item_of_split?_eq_none hform (Bytes.split?_eq_none_iff.2 (by omega))
    rw [hdrop, advance.eq_def, if_neg hpending]
    simp only [hmore]
  | case5 => cases h

/-! ### The places of a walk -/

/-- A walk over a buffer that stands at `w` comes to stand at `v`. -/
inductive Visits (b : Bytes) : ItemWalk → ItemWalk → Prop where
  | here (w : ItemWalk) : Visits b w w
  | item {w v : ItemWalk} {marker : UInt8} {tail : Bytes} {bytes items : Nat}
      (owed : w.pending ≠ 0) (rest : b.drop w.pos = marker :: tail)
      (known : item marker tail = .known bytes items)
      (goesOn : Visits b ⟨satAdd w.pos (1 + bytes), satAdd (w.pending - 1) items⟩ v) :
      Visits b w v

variable {b : Bytes} {w v : ItemWalk}

/-- All places of a walk lead to the same frame. -/
private theorem Visits.advance_eq (fits : b.length ≤ wordMax) (h : Visits b w v) :
    advance b.length w.pos w.pending (b.drop w.pos) =
      advance b.length v.pos v.pending (b.drop v.pos) := by
  induction h with
  | here w => rfl
  | item owed rest known _ ih => rw [advance_of_known fits owed rest known, ih]

/-- The sums that a walk forms at its place are words. -/
structure InWords (b : Bytes) (w : ItemWalk) : Prop where
  /-- One more byte than there are, where the next item is missing. -/
  missing : w.pos + 1 ≤ wordMax
  /-- The end of the next item, and the number of items that it announces. -/
  known : ∀ {marker tail bytes items}, b.drop w.pos = marker :: tail →
    item marker tail = .known bytes items → w.pos + (1 + bytes) ≤ wordMax ∧ items ≤ wordMax
  /-- The end of the header that is cut off. -/
  header : ∀ {marker tail length}, b.drop w.pos = marker :: tail →
    item marker tail = .header length → w.pos + length ≤ wordMax

/-- A walk near the buffer is far from the end of the words. -/
private theorem inWords_of_pos_lt (small : b.length < 2 ^ 63) (near : w.pos < 2 ^ 63 + 2 ^ 34) :
    InWords b w := by
  refine ⟨by rw [wordMax]; omega, fun {marker tail bytes items} hrest hitem => ?_,
    fun {marker tail length} hrest hitem => ?_⟩
  · have hpos := Bytes.lt_length_of_drop hrest
    obtain ⟨hbytes, hitems⟩ := lt_of_item_eq_known hitem
    rw [wordMax]
    omega
  · have hpos := Bytes.lt_length_of_drop hrest
    obtain ⟨-, hlength⟩ := length_of_item_eq_header hitem
    rw [wordMax]
    omega

/-- **No position of a walk stops at the greatest word**: an item begins inside of the buffer, and
its header names fewer than `2 ^ 33` bytes. -/
private theorem Visits.inWords (small : b.length < 2 ^ 63) (near : w.pos < 2 ^ 63 + 2 ^ 34)
    (h : Visits b w v) : InWords b v := by
  induction h with
  | here w => exact inWords_of_pos_lt small near
  | item owed rest known _ ih =>
    have hpos := Bytes.lt_length_of_drop rest
    obtain ⟨hbytes, -⟩ := lt_of_item_eq_known known
    refine ih (Nat.lt_of_le_of_lt (Nat.min_le_left _ _) ?_)
    omega

end ItemWalk

end Frame

namespace Scanner

open ForwardIntake.Frame Message

variable {b more : Bytes}

/-- In MessagePack the frame is what the walk finds behind the separators. -/
private theorem frameOf_eq_advance {first : UInt8} {rest : Bytes} (h : body b = first :: rest)
    (codec : Codec.sniff first = .messagePack) :
    frameOf b = (ItemWalk.advance b.length (separators b).length 1
      (b.drop (separators b).length)).1 := by
  rw [frameOf, scan_fresh_of_cons h, Walk.start, codec]
  rfl

/-- **A bound is kept** by every buffer that has not grown that far. -/
theorem frameOf_append_of_short {needed : Nat} (small : b.length < 2 ^ 63)
    (h : frameOf b = .incomplete needed) (short : (b ++ more).length < needed) :
    frameOf (b ++ more) = .incomplete needed := by
  cases hbody : body b with
  | nil =>
    rw [frameOf_of_nil hbody] at h
    split at h
    · rename_i hb
      cases h
      obtain rfl : more = [] := List.eq_nil_of_length_eq_zero (by
        rw [List.length_append] at short
        omega)
      rw [hb]
      rfl
    · cases h
  | cons first rest =>
    have hne : body b ≠ [] := by simp [hbody]
    have hmore := body_append_of_cons hbody more
    cases codec : Codec.sniff first with
    | messagePack =>
      have hpos : (separators b).length ≤ wordMax := by
        have := length_separators b
        rw [wordMax]
        omega
      rw [frameOf_eq_advance hbody codec] at h
      have hneeded := ItemWalk.le_wordMax_of_advance hpos h
      rw [frameOf_eq_advance hmore codec, separators_append hne]
      exact ItemWalk.advance_append_of_short (by omega) short h
    | json =>
      obtain ⟨w, -, hframe⟩ | ⟨length, -, hframe⟩ := frameOf_json_cases hbody codec
      · rw [hframe] at h
        cases h
        obtain rfl : more = [] := List.eq_nil_of_length_eq_zero (by
          rw [List.length_append] at short
          omega)
        rw [List.append_nil, hframe]
      · rw [hframe] at h
        cases h

/-- The walk over the message at the front of a buffer counts as if there were no greatest word, and
at each of its places the sums that it forms are words. -/
theorem frameOf_in_words {first : UInt8} {rest : Bytes} (small : b.length < 2 ^ 63)
    (h : body b = first :: rest) (codec : Codec.sniff first = .messagePack) :
    frameOf b = ItemWalk.exact b.length (separators b).length 1 (body b) ∧
      ∀ v, ItemWalk.Visits b ⟨(separators b).length, 1⟩ v →
        frameOf b = (ItemWalk.advance b.length v.pos v.pending (b.drop v.pos)).1 ∧
          ItemWalk.InWords b v := by
  refine ⟨frameOf_of_messagePack h codec small, fun v hv => ⟨?_, hv.inWords small ?_⟩⟩
  · rw [frameOf_eq_advance h codec]
    exact congrArg Prod.fst (hv.advance_eq (le_wordMax_of_lt small))
  · have hlength := length_separators b
    simp only
    omega

end Scanner

end ForwardIntake
