import ForwardIntake.Proofs.Frame.Scanner

/-!
# Scanning a buffer again and again

A scanner is asked about a buffer whenever the buffer may have grown, so what it says rests on all
the scans before.  The buffers that it has seen form a chain of prefixes, with any steps between
them and with repetitions; they may begin with empty buffers and with buffers of separators only,
from which no codec can be told.

* One scan leaves a scanner at a place that a fresh scan of any longer buffer passes through
  (`scan_resume`), so the history as a whole comes down to its last buffer
  (`scan_scanAll`).
* Once a scanner has found the frame of a message it answers nothing else any more
  (`scan_scanAll_of_found`).

The length of a buffer is a word, as positions in it are: beyond the greatest word a position could
not be told from the place where it stopped.
-/

namespace ForwardIntake

namespace Scanner

open ForwardIntake.Frame Message

variable {b c : Bytes} {buffers : List Bytes}

/-- The scanner that has scanned the buffers one after the other. -/
def scanAll (s : Scanner) (buffers : List Bytes) : Scanner :=
  buffers.foldl (fun s b => (s.scan b).2) s

/-- The last buffer is scanned last. -/
private theorem scanAll_append_singleton (s : Scanner) (buffers : List Bytes) (b : Bytes) :
    s.scanAll (buffers ++ [b]) = ((s.scanAll buffers).scan b).2 := by
  rw [scanAll, List.foldl_append]
  rfl

/-- `scan_resume` for a buffer of which an earlier one is a prefix. -/
private theorem scan_resume_of_grown (hgrown : b <+: c) (fits : c.length ≤ wordMax) :
    (fresh.scan b).2.scan c = fresh.scan c := by
  obtain ⟨more, rfl⟩ := hgrown
  exact scan_resume fits

/-- Whatever a scanner has scanned of a growing buffer, the next scan says what a fresh scanner
says, and leaves the scanner as it leaves a fresh one. -/
private theorem scan_scanAll (grows : (buffers ++ [b]).IsChain (· <+: ·))
    (fits : b.length ≤ wordMax) :
    (fresh.scanAll buffers).scan b = fresh.scan b := by
  -- the last scan before this one brings the scanner back to what one scan makes of a fresh one
  induction buffers using List.reverseRecOn generalizing b with
  | nil => rfl
  | append_singleton buffers last ih =>
    rw [List.append_assoc] at grows
    obtain ⟨before, growth, -⟩ := List.isChain_append_cons_cons.1 grows
    have hgrown : last <+: b := growth
    rw [scanAll_append_singleton, ih before (Nat.le_trans hgrown.length_le fits)]
    exact scan_resume_of_grown hgrown fits

/-! ### Frames that are found -/

/-- A frame with a byte of a message in it is the frame of a message, and a refusal is one. -/
private theorem body_ne_nil_of_frameOf
    (h : frameOf b = .invalid ∨
      ∃ n, frameOf b = .complete n ∧ ∃ byte ∈ b.take n, Bytes.isSeparator byte = false) :
    body b ≠ [] := by
  intro hbody
  rcases h with h | ⟨n, -, byte, hmem, hbyte⟩
  · rw [frameOf_of_nil hbody] at h
    split at h <;> cases h
  · have hblank := List.dropWhile_eq_nil_iff.1 hbody byte (List.mem_of_mem_take hmem)
    rw [hbyte] at hblank
    cases hblank

/-- A scanner that has found the frame of a message keeps nothing else, and answers with it whatever
buffer it is given. -/
private theorem scan_scanAll_of_found (grows : (buffers ++ [b]).IsChain (· <+: ·))
    (fits : b.length ≤ wordMax) (hbody : body b ≠ []) (h : (frameOf b).isIncomplete = false)
    (c : Bytes) : ((fresh.scanAll (buffers ++ [b])).scan c).1 = frameOf b := by
  obtain ⟨first, rest, hcons⟩ := List.exists_cons_of_ne_nil hbody
  rw [scanAll_append_singleton, scan_scanAll grows fits]
  rw [frameOf, scan_fresh_of_cons hcons] at h ⊢
  simp only [scan, Walk.advance_snd_of_found h]
  rfl

/-- **A scanner is resumable.**  Having scanned any chain of prefixes of a buffer, it says of the
buffer what a fresh scanner says.  A frame with a byte of a message in it and a refusal are final:
from then on the scanner repeats them whatever follows, and so does a fresh scanner. -/
theorem resumed_scan_eq_fresh (buffers : List Bytes) (b : Bytes)
    (grows : (buffers ++ [b]).IsChain (· <+: ·)) (fits : b.length ≤ wordMax) :
    ((fresh.scanAll buffers).scan b).1 = frameOf b ∧
      ((frameOf b = .invalid ∨
          ∃ n, frameOf b = .complete n ∧ ∃ byte ∈ b.take n, Bytes.isSeparator byte = false) →
        ∀ more, ((fresh.scanAll (buffers ++ [b])).scan (b ++ more)).1 = frameOf b ∧
          ((b ++ more).length ≤ wordMax → frameOf (b ++ more) = frameOf b)) := by
  refine ⟨by rw [scan_scanAll grows fits, frameOf], fun final more => ?_⟩
  have hbody : body b ≠ [] := body_ne_nil_of_frameOf final
  have found : (frameOf b).isIncomplete = false := by
    rcases final with h | ⟨n, h, -⟩ <;> rw [h] <;> rfl
  exact ⟨scan_scanAll_of_found grows fits hbody found _,
    fun fits' => frameOf_append_of_found fits' hbody found⟩

/-- A message that is cut in its header and in its payload, with separators before it that were
scanned on their own; and a byte behind it that begins no message. -/
theorem resumed_scan_eq_fresh_pieces :
    ((fresh.scanAll [[], [0x20], [0x20, 0x93, 0xD9], [0x20, 0x93, 0xD9],
          [0x20, 0x93, 0xD9, 0x01]]).scan
        [0x20, 0x93, 0xD9, 0x01, 0x61, 0x10, 0x80]).1 = .complete 7 ∧
      ((fresh.scanAll ([[], [0x20], [0x20, 0x93, 0xD9], [0x20, 0x93, 0xD9],
          [0x20, 0x93, 0xD9, 0x01]] ++ [[0x20, 0x93, 0xD9, 0x01, 0x61, 0x10, 0x80]])).scan
        ([0x20, 0x93, 0xD9, 0x01, 0x61, 0x10, 0x80] ++ [0xC1])).1 = .complete 7 := by
  have hframe : frameOf [0x20, 0x93, 0xD9, 0x01, 0x61, 0x10, 0x80] = .complete 7 := by cbv
  obtain ⟨last, final⟩ := resumed_scan_eq_fresh
    [[], [0x20], [0x20, 0x93, 0xD9], [0x20, 0x93, 0xD9], [0x20, 0x93, 0xD9, 0x01]]
    [0x20, 0x93, 0xD9, 0x01, 0x61, 0x10, 0x80] (by decide) (by decide)
  rw [hframe] at last final
  exact ⟨last, (final (.inr ⟨7, rfl, 0x93, by decide, by decide⟩) [0xC1]).1⟩

end Scanner

end ForwardIntake
