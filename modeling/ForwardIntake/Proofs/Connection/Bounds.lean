import ForwardIntake.Proofs.Connection.Running
import ForwardIntake.Proofs.Frame.Bounds

/-!
# What a bound says of the messages to come

A scanner that misses bytes names how far the buffer must grow.  Every buffer that goes on from
there and has not grown that far is answered in the same way, and no message that is found or
decoded later is shorter (`Scanner.needed_sound`).  So a session that compares the bound with its
limit reads on for as long as the message before it may still fit.
-/

namespace ForwardIntake

namespace Scanner

open ForwardIntake.Frame Message

variable {b more : Bytes} {needed n limit : Nat}

/-- A message that is found or decoded later is not shorter than the bound. -/
private theorem needed_le (h : frameOf b = .incomplete needed) (small : (b ++ more).length < 2 ^ 63)
    (hfound : frameOf (b ++ more) = .complete n ∨ ∃ set, decode (b ++ more) = .message set n) :
    needed ≤ n := by
  have hframe : frameOf (b ++ more) = .complete n := by
    rcases hfound with hframe | ⟨set, hdecode⟩
    · exact hframe
    · exact frameOf_of_message small hdecode
  have hreach := le_reach_frameOf_append small h
  rwa [hframe] at hreach

/-- A session whose buffer must grow, but no further than the limit, goes on to read. -/
private theorem phase_scan_of_incomplete {s : Session} (hin : s.scanner.InStep s.buffer)
    (small : s.buffer.length < 2 ^ 63) (h : frameOf s.buffer = .incomplete needed)
    (hfits : needed ≤ limit) : (s.scan limit).1.phase = .reading needed := by
  rw [Session.scan_eq_frameOf hin small, h]
  simp only [Session.await, if_neg (Nat.not_lt.2 hfits)]

/-- **Bounds are sound.**  When a buffer must grow, the bound lies beyond it.  A longer buffer below
the bound gets the same answer.  No message that is found or decoded once the buffer has grown is
shorter than the bound, so a session does not give up on a message that fits into its limit.  And
the walk that leads to the bound counts as in numbers without a bound: at none of its places a
position or a length leaves the words. -/
theorem needed_sound (b : Bytes) (needed : Nat) (small : b.length < 2 ^ 63)
    (h : frameOf b = .incomplete needed) :
    b.length < needed ∧
      (∀ more, (b ++ more).length < needed → frameOf (b ++ more) = .incomplete needed) ∧
      (∀ more n, (b ++ more).length < 2 ^ 63 →
        (frameOf (b ++ more) = .complete n ∨ ∃ set, decode (b ++ more) = .message set n) →
        needed ≤ n ∧
          ∀ (limit : Nat) (s : Session), n ≤ limit → s.buffer = b → s.scanner.InStep b →
            (s.scan limit).1.phase = .reading needed) ∧
      ∀ first rest, body b = first :: rest → Codec.sniff first = .messagePack →
        frameOf b = ItemWalk.exact b.length (separators b).length 1 (body b) ∧
          ∀ v, ItemWalk.Visits b ⟨(separators b).length, 1⟩ v →
            frameOf b = (ItemWalk.advance b.length v.pos v.pending (b.drop v.pos)).1 ∧
              ItemWalk.InWords b v := by
  refine ⟨lt_of_frameOf_eq_incomplete small h, fun more => frameOf_append_of_short small h,
    fun more n hmore hfound => ?_, fun first rest => frameOf_in_words small⟩
  have hle : needed ≤ n := needed_le h hmore hfound
  refine ⟨hle, fun limit s hlimit hbuffer hin => ?_⟩
  subst hbuffer
  exact phase_scan_of_incomplete hin small h (Nat.le_trans hle hlimit)

/-- A packed message of which the header of the entries is there.  A session with a limit of nine
bytes goes on to read, and the message has nine. -/
theorem needed_sound_packed :
    let b : Bytes := [0x93, 0xA1, 0x61, 0xC4, 0x03]
    frameOf b = .incomplete 9 ∧ frameOf (b ++ [0x92, 0x10, 0x80]) = .incomplete 9 ∧
      (∃ set, decode (b ++ [0x92, 0x10, 0x80, 0x80]) = .message set 9) ∧
      (({ Session.new 0 ⟨0⟩ .silent with buffer := b }).scan 9).1.phase = .reading 9 ∧
      ItemWalk.InWords b ⟨1, 3⟩ := by
  intro b
  have hframe : frameOf b = .incomplete 9 := by cbv
  have hdecode : ∃ set, decode (b ++ [0x92, 0x10, 0x80, 0x80]) = .message set 9 :=
    ⟨_, by with_unfolding_all rfl⟩
  obtain ⟨-, hshort, hlater, hwords⟩ := needed_sound b 9 (by decide) hframe
  refine ⟨hframe, hshort _ (by decide), hdecode,
    (hlater _ 9 (by decide) (.inr hdecode)).2 9 _ (Nat.le_refl 9) rfl (inStep_fresh b), ?_⟩
  have hbehind : (⟨satAdd 0 (1 + 0), satAdd (1 - 1) 3⟩ : ItemWalk) = ⟨1, 3⟩ := by decide
  have hvisits : ItemWalk.Visits b ⟨0, 1⟩ ⟨satAdd 0 (1 + 0), satAdd (1 - 1) 3⟩ :=
    .item (by decide) rfl rfl (.here _)
  rw [hbehind] at hvisits
  exact ((hwords 0x93 _ rfl rfl).2 ⟨1, 3⟩ hvisits).2

end Scanner

end ForwardIntake
