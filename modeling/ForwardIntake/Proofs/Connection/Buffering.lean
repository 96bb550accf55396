import ForwardIntake.Proofs.Connection.Running
import ForwardIntake.Proofs.Connection.Steps
import ForwardIntake.Sink.JsonLines

/-!
# Buffers, scanners and reads

A session splits messages off the front of its buffer while its scanner follows the end of it.
Both stay in step (`Session.Coupled`): whatever a session has been through, its scanner says of its
buffer what a fresh scanner says, and a read is begun only for a buffer that must grow, and that may
grow as far as it must.  So the look at the limit right before a read never stops a session, and a
session that knows its message to be too long ends before it reads any more
(`Hub.reads_have_room`).
-/

namespace ForwardIntake

/-- A buffer that no memory holds is in step with any scanner. -/
private theorem Scanner.inStep_of_le {b : Bytes} (large : 2 ^ 63 ≤ b.length) (s : Scanner) :
    s.InStep b := by
  intro more small
  rw [List.length_append] at small
  omega

namespace Session

open Scanner

variable {σ : Type} [Sink σ] {limit : Nat} {down : Bool} {s s' : Session} {sink sink' : σ}
  {stats stats' : Stats}

/-- The scanner is in step with the buffer, and a read has room for the bytes that it must bring. -/
structure Coupled (limit : Nat) (s : Session) : Prop where
  inStep : s.scanner.InStep s.buffer
  reading : ∀ needed, s.phase = .reading needed →
    (s.buffer.length < 2 ^ 63 → s.buffer.length < needed) ∧ needed ≤ limit

/-! ### The parts of a step -/

/-- The scan of a session leaves its scanner in step. -/
private theorem inStep_scanned (h : s.scanner.InStep s.buffer) :
    s.scanned.scanner.InStep s.scanned.buffer := by
  rcases Nat.lt_or_ge s.buffer.length (2 ^ 63) with small | large
  · exact h.scan small
  · exact inStep_of_le large _

/-- A session that ends keeps its scanner in step. -/
private theorem Coupled.finish (h : s.scanner.InStep s.buffer) (outcome : Outcome) :
    (s.finish outcome).Coupled limit :=
  ⟨h, fun _ hphase => by cases hphase⟩

/-- Waiting for more bytes than are buffered leaves room for them. -/
private theorem coupled_await {needed : Nat} (h : s.scanner.InStep s.buffer)
    (hmore : s.buffer.length < 2 ^ 63 → s.buffer.length < needed) :
    (s.await limit needed).Coupled limit := by
  rw [await]
  split
  · exact .finish h _
  · rename_i hfits
    refine ⟨h, fun needed' hphase => ?_⟩
    obtain rfl : needed = needed' := Phase.reading.inj hphase
    exact ⟨hmore, Nat.le_of_not_lt hfits⟩

/-- What is left behind a message is scanned afresh. -/
theorem Decodes.coupled {sets : List RecordSet} (h : s.Decodes s' sets)
    (hin : s.scanner.InStep s.buffer) : s'.Coupled limit := by
  cases h with
  | skips | takes => exact ⟨inStep_fresh _, fun _ hphase => by cases hphase⟩
  | fails => exact .finish hin _

/-- A turn other than behind a scan does not wait for bytes. -/
private theorem Turn.coupled {sets : List RecordSet} (h : s.Turn s' sets)
    (hin : s.scanner.InStep s.buffer) (hphase : s.phase ≠ .scanning) : s'.Coupled limit := by
  cases h with
  | decodes decoded => exact decoded.coupled hin
  | ends => exact .finish hin _
  | waits phase => exact absurd phase hphase
  | polls | retries => exact ⟨hin, fun _ hphase => by cases hphase⟩

private theorem coupled_getD_decode {other : Session × List RecordSet}
    (h : s.scanner.InStep s.buffer) (hother : other.1.Coupled limit) :
    (s.decode.getD other).1.Coupled limit := by
  cases hdecode : s.decode with
  | none => exact hother
  | some decoded => exact (Decodes.of_decode hdecode).coupled h

/-- A scan that waits has room for more bytes than are buffered. -/
theorem coupled_scan (h : s.scanner.InStep s.buffer) : (s.scan limit).1.Coupled limit := by
  have hscanned := inStep_scanned h
  have hframe (small : s.buffer.length < 2 ^ 63) : (s.scanner.scan s.buffer).1 = frameOf s.buffer :=
    congrArg Prod.fst (h.scan_eq small)
  simp only [scan]
  split
  · rename_i needed hneeded
    -- a frame that is not complete needs more than there is
    refine coupled_await hscanned fun small => ?_
    exact lt_of_frameOf_eq_incomplete small ((hframe small).symm.trans hneeded)
  · exact coupled_getD_decode hscanned (coupled_await hscanned fun _ => Nat.lt_succ_self _)

/-- **A step keeps scanner and buffer in step.** -/
private theorem Coupled.step (hs : s.Coupled limit)
    (h : Step limit down s sink stats s' sink' stats') : s'.Coupled limit := by
  have hin := hs.inStep
  cases h with
  | opens | delivers => exact ⟨hin, fun _ hphase => by cases hphase⟩
  | scans => exact coupled_scan hin
  | refuses | breaksOff => exact .finish hin _
  | begins phase => exact (turn_beginRead phase).coupled hin (by simp [phase])
  | ends phase => exact turn_atEnd.coupled hin (by simp [phase])
  | @endsEarly arrivals phase =>
    exact (turn_atEnd (s := s.withArrivals arrivals)).coupled hin (by simp [phase])
  | @receives chunk => exact ⟨hin.append chunk, fun _ hphase => by cases hphase⟩
  | @fails error arrivals phase =>
    exact (turn_atFault (s := s.withArrivals arrivals) phase error).coupled hin (by simp [phase])

/-- A read that has room is begun unless the client was shut down. -/
private theorem beginRead_of_lt {needed : Nat} (hmore : s.buffer.length < needed)
    (hfits : needed ≤ limit) (down : Bool) :
    s.beginRead limit down =
      if down then s.finish .shutdown else { s with phase := .polling, reads := s.reads + 1 } := by
  have hroom : ¬limit ≤ s.buffer.length := by omega
  rw [beginRead, if_neg hroom]

/-! ### Messages that are too long -/

/-- The session is about to find that its message is too long, or has found it. -/
def Overrun (limit : Nat) (b : Bytes) (reads : Nat) (s : Session) : Prop :=
  s.buffer = b ∧ s.reads = reads ∧
    (s.phase = .scanning ∧ s.scanner.InStep b ∨ s.phase = .finished (.tooLarge limit))

/-- A message that needs more than the limit ends the session. -/
private theorem scan_of_tooLong {needed : Nat} (h : s.scanner.InStep s.buffer)
    (small : s.buffer.length < 2 ^ 63) (hframe : frameOf s.buffer = .incomplete needed)
    (hlong : limit < needed) : s.scan limit = (s.scanned.finish (.tooLarge limit), []) := by
  rw [scan_eq_frameOf h small, hframe]
  simp only [await, if_pos hlong]

/-- **A message that is too long ends its session** in the next step, which reads nothing. -/
private theorem Overrun.step {b : Bytes} {reads needed : Nat} (small : b.length < 2 ^ 63)
    (hframe : frameOf b = .incomplete needed) (hlong : limit < needed)
    (hs : s.Overrun limit b reads) (h : Step limit down s sink stats s' sink' stats') :
    s'.Overrun limit b reads := by
  obtain ⟨rfl, rfl, ⟨hphase, hin⟩ | hphase⟩ := hs
  · rw [h.eq_scan hphase, scan_of_tooLong hin small hframe hlong]
    exact ⟨rfl, rfl, .inr rfl⟩
  · have hgoes := h.isOver_eq_false
    simp [hphase] at hgoes

/-! ### Whatever happens to a session -/

/-- A new session is coupled: its buffer is empty and its scanner fresh. -/
private theorem coupled_new (id : ConnectionId) (token : Token) (feed : Feed) :
    (Session.new id token feed).Coupled limit :=
  ⟨inStep_fresh _, fun _ hphase => by cases hphase⟩

/-- A session stays coupled, whatever happens to it. -/
private theorem Coupled.next (hs : s.Coupled limit) (h : Next limit s s') : s'.Coupled limit := by
  cases h with
  | rests => exact hs
  | steps step => exact hs.step step
  | isFed => exact ⟨hs.inStep, hs.reading⟩
  | discards => exact ⟨hs.inStep, fun _ hphase => by cases hphase⟩
  | breaksOff => exact .finish hs.inStep _

/-- A session stays overrun, whatever happens to it. -/
private theorem Overrun.next {b : Bytes} {reads needed : Nat} (small : b.length < 2 ^ 63)
    (hframe : frameOf b = .incomplete needed) (hlong : limit < needed)
    (hs : s.Overrun limit b reads) (h : Next limit s s') : s'.Overrun limit b reads := by
  have hphase := hs.2.2
  cases h with
  | rests => exact hs
  | steps step => exact hs.step small hframe hlong step
  | isFed => exact hs
  | discards phase => simp [phase] at hphase
  | breaksOff phase => simp [phase] at hphase

end Session

/-! ### Runs -/

namespace Hub

open Scanner Session

variable {σ : Type} [Sink σ] {limit : Nat} {sink : σ} {h h' : Hub σ} {i : Nat} {s : Session}

/-- **Every session of a run is coupled.** -/
private theorem coupled_of_reaches (hreach : Reaches act (.new limit sink) h)
    (hat : h.sessions[i]? = some s) : s.Coupled limit := by
  have hall : h.limit = limit ∧
      ∀ (i : Nat) (s : Session), h.sessions[i]? = some s → s.Coupled limit := by
    refine hreach.invariant (P := fun h : Hub σ => h.limit = limit ∧
      ∀ (i : Nat) (s : Session), h.sessions[i]? = some s → s.Coupled limit) ?_ ?_
    · rintro h a h' ⟨hlimit, hcoupled⟩ hact
      have hchange := Change.of_act hact
      refine ⟨hchange.limit_eq.trans hlimit, fun i t hat => ?_⟩
      rcases hchange.of_session hat with ⟨s, hs, hnext⟩ | ⟨_, feed, -, -, rfl⟩
      · rw [hlimit] at hnext
        exact (hcoupled i s hs).next hnext
      · exact coupled_new _ _ feed
    · refine ⟨rfl, fun i s hat => ?_⟩
      simp at hat
  exact hall.2 i s hat

/-- A session that runs into the limit stays with what it has, and ends. -/
private theorem overrun_of_reaches {needed : Nat} (hat : h.sessions[i]? = some s)
    (small : s.buffer.length < 2 ^ 63) (hin : s.scanner.InStep s.buffer)
    (hphase : s.phase = .scanning) (hframe : frameOf s.buffer = .incomplete needed)
    (hlong : h.limit < needed) (hreach : Reaches act h h') :
    ∃ t, h'.sessions[i]? = some t ∧ t.Overrun h.limit s.buffer s.reads := by
  have hall : h'.limit = h.limit ∧
      ∃ t : Session, h'.sessions[i]? = some t ∧ t.Overrun h.limit s.buffer s.reads := by
    refine hreach.invariant (P := fun h' : Hub σ => h'.limit = h.limit ∧
      ∃ t : Session, h'.sessions[i]? = some t ∧ t.Overrun h.limit s.buffer s.reads) ?_ ?_
    · rintro h₁ a h₂ ⟨hlimit, t, hat₁, ht⟩ hact
      have hchange := Change.of_act hact
      obtain ⟨u, hat₂, hnext⟩ := hchange.session hat₁
      rw [hlimit] at hnext
      exact ⟨hchange.limit_eq.trans hlimit, u, hat₂, ht.next small hframe hlong hnext⟩
    · exact ⟨rfl, s, hat, rfl, rfl, .inl ⟨hphase, hin⟩⟩
  exact hall.2

/-- Running a session is a run, at whose end the session makes no step. -/
theorem reaches_run (i : Nat) (h : Hub σ) :
    Reaches act h (h.run i) ∧ (h.run i).advance i = none := by
  fun_induction Hub.run i h with
  | case1 h next hadvance _ ih =>
    have hfirst : Reaches act h next := .tail (.refl act h) (a := .advance i) hadvance
    exact ⟨hfirst.trans ih.1, ih.2⟩
  | case2 h hadvance => exact ⟨.refl act h, hadvance⟩

/-- A session that scans can go on. -/
private theorem advance_ne_none (hat : h.sessions[i]? = some s) (hphase : s.phase = .scanning) :
    h.advance i ≠ none := by
  simp [advance, hat, step, hphase]

/-- **Reads have room.**  Wherever a run has led, the scanner of a session says of its buffer what a
fresh scanner says.  A session that goes on to read waits for more than it has and for no more than
the limit, so only a shutdown keeps it from the read.  A session whose message is known to be too
long ends with that, and neither its buffer grows before nor is a read begun. -/
theorem reads_have_room (hreach : Reaches act (.new limit sink) h)
    (hat : h.sessions[i]? = some s) (small : s.buffer.length < 2 ^ 63) :
    s.scanner.scan s.buffer = fresh.scan s.buffer ∧
      (∀ needed, s.phase = .reading needed →
        s.buffer.length < needed ∧ needed ≤ limit ∧
          ∀ down, s.beginRead limit down =
            if down then s.finish .shutdown
            else { s with phase := .polling, reads := s.reads + 1 }) ∧
      ∀ needed, s.phase = .scanning → frameOf s.buffer = .incomplete needed → limit < needed →
        (h.run i).outcome? i = some (.tooLarge limit) ∧
          ∀ h', Reaches act h h' → ∃ t, h'.sessions[i]? = some t ∧
            t.buffer = s.buffer ∧ t.reads = s.reads ∧
            (t.phase = .scanning ∨ t.phase = .finished (.tooLarge limit)) := by
  have hcoupled := coupled_of_reaches hreach hat
  obtain rfl : h.limit = limit := limit_eq_of_reaches hreach
  refine ⟨hcoupled.inStep.scan_eq small, fun needed hphase => ?_,
    fun needed hphase hframe hlong => ?_⟩
  · obtain ⟨hmore, hfits⟩ := hcoupled.reading needed hphase
    exact ⟨hmore small, hfits, beginRead_of_lt (hmore small) hfits⟩
  · have hoverrun {h' : Hub σ} (hreach' : Reaches act h h') :=
      overrun_of_reaches hat small hcoupled.inStep hphase hframe hlong hreach'
    refine ⟨?_, fun h' hreach' => ?_⟩
    · obtain ⟨hrun, hrests⟩ := reaches_run i h
      obtain ⟨t, hat', -, -, ⟨hscans, -⟩ | hends⟩ := hoverrun hrun
      · exact absurd hrests (advance_ne_none hat' hscans)
      · rw [outcome?, hat', Option.bind_some, hends]
    · obtain ⟨t, hat', hbuffer, hreads, hwhere⟩ := hoverrun hreach'
      exact ⟨t, hat', hbuffer, hreads, hwhere.imp_left And.left⟩

/-- A limit of eight bytes.  Behind the first two bytes of an array a session goes on to read; then
the second item of the array turns out to be a text of 256 bytes. -/
theorem reads_have_room_text :
    let h : Hub JsonLines := (Hub.new 8 ⟨.empty⟩).accept "" (.ofArrivals
      [.chunk [0x93, 0xA1], .chunk [0x61, 0xDB, 0x00, 0x00, 0x01, 0x00]])
    (∃ (h' : Hub JsonLines) (s : Session), Reaches act h h' ∧ h'.sessions[0]? = some s ∧
      s.buffer = [0x93, 0xA1] ∧ s.phase = .reading 4 ∧ s.buffer.length < 4 ∧ 4 ≤ 8) ∧
    ∃ (h' : Hub JsonLines) (s : Session), Reaches act h h' ∧ h'.sessions[0]? = some s ∧
      s.buffer = [0x93, 0xA1, 0x61, 0xDB, 0x00, 0x00, 0x01, 0x00] ∧ s.phase = .scanning ∧
      frameOf s.buffer = .incomplete 265 ∧ (h'.run 0).outcome? 0 = some (.tooLarge 8) := by
  intro h
  have haccept : Reaches act (.new 8 (⟨.empty⟩ : JsonLines)) h :=
    .of_actions [.accept "" _] rfl
  refine ⟨?_, ?_⟩
  · let s : Session := ⟨0, ⟨0⟩, [0x93, 0xA1], ⟨some (.items ⟨3, 2⟩)⟩,
      .ofArrivals [.chunk [0x61, 0xDB, 0x00, 0x00, 0x01, 0x00]], 1, .reading 4⟩
    have hsteps : Reaches act h { h.settle 0 s with stats := h.stats.countBytes 2 } :=
      .of_actions (.replicate 5 (.advance 0)) (by cbv)
    have hroom := reads_have_room (haccept.trans hsteps) (i := 0) rfl (by decide)
    obtain ⟨hmore, hfits, -⟩ := hroom.2.1 4 rfl
    exact ⟨_, s, hsteps, rfl, rfl, rfl, hmore, hfits⟩
  · let b : Bytes := [0x93, 0xA1, 0x61, 0xDB, 0x00, 0x00, 0x01, 0x00]
    let s : Session := ⟨0, ⟨0⟩, b, ⟨some (.items ⟨3, 2⟩)⟩, .ofArrivals [], 2, .scanning⟩
    have hsteps : Reaches act h
        { h.settle 0 s with stats := (h.stats.countBytes 2).countBytes 6 } :=
      .of_actions (.replicate 7 (.advance 0)) (by cbv)
    have hframe : frameOf b = .incomplete 265 := by cbv
    have hroom := reads_have_room (haccept.trans hsteps) (i := 0) rfl (by decide)
    obtain ⟨hends, -⟩ := hroom.2.2 265 rfl hframe (by decide)
    exact ⟨_, s, hsteps, rfl, rfl, rfl, hframe, hends⟩

end Hub

end ForwardIntake
