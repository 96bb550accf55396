import ForwardIntake.Proofs.Connection.Buffering
import ForwardIntake.Proofs.Connection.Clients
import ForwardIntake.Proofs.Connection.Counting

/-!
# Shutting down one client

A session whose client was shut down does not begin another read, but what it has read is still
decoded and offered to the sink: it ends where it would have to read on.  So what it will offer and
how it will end can be told from its buffer alone (`Session.pending`, `Session.closing`), unless the
sink refuses a batch (`Session.Drains`).

The shutdown may come while a read is in progress.  Then the read comes to an end first, with bytes,
with the end of the stream, with an error, or since it is broken off (`Session.Returns`).
-/

namespace ForwardIntake

namespace Sink

variable {σ : Type} [Sink σ] {sink : σ}

/-- The sink never keeps a session waiting. -/
def Answers (sink : σ) : Prop :=
  ∀ (before : List Batch) (batch : Batch), (emit (emitAll sink before) batch).1 ≠ .stalled

/-- A sink that takes everything answers. -/
private theorem Accepts.answers (h : Accepts sink) : Answers sink := by
  intro before batch hstalled
  rw [h before batch] at hstalled
  cases hstalled

end Sink

namespace Session

open Scanner Serving
open Message (delivered leftover delivered_of_none delivered_of_some leftover_of_none
  leftover_of_some)

variable {limit : Nat} {s s' t : Session}

/-! ### What is buffered -/

/-- The batches that the session can offer without another read, in their order. -/
def pending (s : Session) : List Batch :=
  s.inHand ++ (delivered s.buffer).map ([·])

/-- How the session ends without another read, if the sink refuses nothing. -/
def closing (limit : Nat) (s : Session) : Outcome :=
  (stop? limit (leftover s.buffer)).getD .shutdown

/-- The session is about to read, or reads. -/
def Waits (s : Session) : Prop :=
  (∃ needed, s.phase = .reading needed) ∨ s.phase = .polling

/-- A session reads only if there is nothing more to be decoded, and no reason to stop. -/
structure Poised (limit : Nat) (s : Session) : Prop where
  inStep : s.scanner.InStep s.buffer
  waiting : s.Waits → s.buffer.length < 2 ^ 63 →
    (Message.decode s.buffer).sets? = none ∧ stop? limit s.buffer = none

/-- A session that does not wait is poised. -/
private theorem Poised.of_not_waits (hin : s.scanner.InStep s.buffer) (h : ¬ s.Waits) :
    s.Poised limit :=
  ⟨hin, fun hwaits => absurd hwaits h⟩

/-- A session that has decoded something does not wait. -/
private theorem Decodes.not_waits {sets : List RecordSet} (h : s.Decodes s' sets) : ¬ s'.Waits := by
  cases h with
  | skips | takes | fails => simp [Waits]

/-- A turn that ends in waiting has taken nothing. -/
private theorem Turn.buffer_eq {sets : List RecordSet} (h : s.Turn s' sets) (hwaits : s'.Waits) :
    s'.buffer = s.buffer := by
  cases h with
  | decodes decoded => exact absurd hwaits decoded.not_waits
  | ends | waits | polls | retries => rfl

/-- A scan leaves the session poised. -/
private theorem poised_scan (hin : s.scanner.InStep s.buffer) (phase : s.phase = .scanning) :
    (s.scan limit).1.Poised limit := by
  refine ⟨(coupled_scan hin).inStep, fun hwaits small => ?_⟩
  have hbuffer : (s.scan limit).1.buffer = s.buffer := (turn_scan phase).buffer_eq hwaits
  rw [hbuffer] at small ⊢
  rw [scan_eq hin small] at hwaits
  cases hsets : (Message.decode s.buffer).sets? with
  | some sets =>
    rw [hsets] at hwaits
    simp only [Waits, release_phase] at hwaits
    split at hwaits
    · simp at hwaits
    · simp at hwaits
  | none =>
    cases hstop : stop? limit s.buffer with
    | some outcome => simp [hsets, hstop, Waits] at hwaits
    | none => exact ⟨rfl, rfl⟩

/-- A turn leaves the session poised, since it waits only if the session did so before. -/
private theorem Turn.poised {sets : List RecordSet} (h : s.Turn s' sets) (hs : s.Poised limit)
    (hphase : s.phase ≠ .scanning) : s'.Poised limit := by
  cases h with
  | decodes decoded =>
    exact .of_not_waits (decoded.coupled hs.inStep : s'.Coupled limit).inStep decoded.not_waits
  | ends | retries => exact .of_not_waits hs.inStep (by simp [Waits])
  | waits phase => exact absurd phase hphase
  | polls phase => exact ⟨hs.inStep, fun _ => hs.waiting (.inl ⟨_, phase⟩)⟩

variable {σ : Type} [Sink σ] {sink sink' : σ} {down : Bool} {stats stats' : Stats}

/-- A step leaves the session poised. -/
private theorem Poised.step (hs : s.Poised limit)
    (h : Step limit down s sink stats s' sink' stats') : s'.Poised limit := by
  have hin := hs.inStep
  cases h with
  | scans phase => exact poised_scan hin phase
  | begins phase => exact (turn_beginRead phase).poised hs (by simp [phase])
  | ends phase => exact turn_atEnd.poised hs (by simp [phase])
  | @endsEarly arrivals phase =>
    exact (turn_atEnd (s := s.withArrivals arrivals)).poised ⟨hin, hs.waiting⟩ (by simp [phase])
  | @fails error arrivals phase =>
    exact (turn_atFault (s := s.withArrivals arrivals) phase error).poised ⟨hin, hs.waiting⟩
      (by simp [phase])
  | @receives chunk => exact .of_not_waits (hin.append chunk) (by simp [Waits])
  | opens | delivers | refuses | breaksOff =>
    exact .of_not_waits hin (by simp [Waits])

/-- A session stays poised, whatever happens to it. -/
private theorem Poised.next (hs : s.Poised limit) (h : Next limit s s') : s'.Poised limit := by
  cases h with
  | rests => exact hs
  | steps step => exact hs.step step
  | isFed => exact ⟨hs.inStep, hs.waiting⟩
  | discards | breaksOff => exact .of_not_waits hs.inStep (by simp [Waits])

private theorem Idles.token_eq (h : s.Idles t) : t.token = s.token := by
  cases h <;> rfl

private theorem Idles.buffer_eq (h : s.Idles t) : t.buffer = s.buffer := by
  cases h <;> rfl

private theorem Idles.reads_eq (h : s.Idles t) : t.reads = s.reads := by
  cases h <;> rfl

/-- No read begins by itself. -/
private theorem Idles.ne_polling (h : s.Idles t) (hphase : s.phase ≠ .polling) :
    t.phase ≠ .polling := by
  cases h with
  | isFed => exact hphase
  | discards => exact fun hpolling => by cases hpolling
  | breaksOff => exact fun hpolling => by cases hpolling

/-- A session that idles stays poised. -/
private theorem Poised.idles (hs : s.Poised limit) (h : s.Idles t) : t.Poised limit := by
  cases h with
  | isFed f => exact hs.next (.isFed f)
  | discards phase => exact hs.next (.discards phase)
  | breaksOff phase => exact hs.next (.breaksOff phase)

/-! ### Steps behind a shutdown -/

/-- What a step makes of a session whose client was shut down and that is not in a read. -/
inductive Closes (limit : Nat) (s : Session) (sink : σ) (t : Session) : Prop where
  /-- The batch in hand, if there is one, is delivered, and the others are still to come. -/
  | goesOn (goes : t.phase.isOver = false)
    (answer : ∀ batch ∈ s.inHand, (Sink.emit sink batch).1 = .delivered)
    (pending : s.pending = s.inHand ++ t.pending) (closing : t.closing limit = s.closing limit)
  | ends (pending : s.pending = []) (phase : t.phase = .finished (s.closing limit))
  | isRefused {batch : Batch} {error : SinkError} (inHand : s.inHand = [batch])
    (answer : (Sink.emit sink batch).1 = .refused error)
    (phase : t.phase = .finished (.sink error))

/-- What is decoded comes first of what is pending. -/
private theorem pending_of_decoded {sets : List RecordSet} (hinHand : s.inHand = [])
    (hsets : (Message.decode s.buffer).sets? = some sets) :
    s.pending = sets.map ([·]) ++
      (delivered (s.buffer.drop (Message.decode s.buffer).consumed)).map ([·]) := by
  rw [pending, hinHand, List.nil_append, delivered_of_some hsets, List.map_append]

/-- With nothing to decode nothing is pending. -/
private theorem pending_of_none (hinHand : s.inHand = [])
    (hsets : (Message.decode s.buffer).sets? = none) : s.pending = [] := by
  rw [pending, hinHand, List.nil_append, delivered_of_none hsets, List.map_nil]

private theorem closes_scan (hin : s.scanner.InStep s.buffer) (small : s.buffer.length < 2 ^ 63)
    (phase : s.phase = .scanning) :
    (s.scan limit).1.buffer.length ≤ s.buffer.length ∧ (s.scan limit).1.reads = s.reads ∧
      (s.scan limit).1.phase ≠ .polling ∧ Closes limit s sink (s.scan limit).1 := by
  have hinHand : s.inHand = [] := by rw [inHand, phase]
  have hanswer : ∀ batch ∈ s.inHand, (Sink.emit sink batch).1 = .delivered := by
    rw [hinHand]
    exact List.forall_mem_nil _
  have hinHand' : (s.scan limit).1.inHand = (s.scan limit).2.map ([·]) :=
    (turn_scan phase).inHand_eq
  rw [scan_eq hin small] at hinHand' ⊢
  cases hsets : (Message.decode s.buffer).sets? with
  | some sets =>
    simp only [hsets] at hinHand'
    refine ⟨List.length_drop.trans_le (Nat.sub_le ..), rfl, ?_, .goesOn ?_ hanswer ?_ ?_⟩
    · rw [release_phase]
      split
      · exact fun hphase => by cases hphase
      · exact fun hphase => by cases hphase
    · rw [release_phase]
      split
      · rfl
      · rfl
    · rw [pending_of_decoded hinHand hsets, hinHand, List.nil_append, pending, hinHand']
      rfl
    · rw [closing, closing, leftover_of_some hsets]
      rfl
  | none =>
    have hpending := pending_of_none hinHand hsets
    cases hstop : stop? limit s.buffer with
    | some outcome =>
      refine ⟨le_refl _, rfl, fun hphase => (by cases hphase), .ends hpending ?_⟩
      rw [closing, leftover_of_none hsets, hstop]
      rfl
    | none =>
      refine ⟨le_refl _, rfl, fun hphase => (by cases hphase), .goesOn rfl hanswer ?_ rfl⟩
      rw [hpending, hinHand, List.nil_append]
      exact (pending_of_none (s := { s.scanned with phase := .reading (demand s.buffer) }) rfl
        hsets).symm

/-- **A step behind a shutdown** reads nothing, and what is still to come stays as it is. -/
private theorem Step.closes (hs : s.Poised limit) (small : s.buffer.length < 2 ^ 63)
    (hphase : s.phase ≠ .polling) (h : Step limit true s sink stats s' sink' stats') :
    s'.buffer.length ≤ s.buffer.length ∧ s'.reads = s.reads ∧ s'.phase ≠ .polling ∧
      Closes limit s sink s' := by
  cases h with
  | opens phase =>
    refine ⟨le_refl _, rfl, fun hphase => (by cases hphase), .goesOn rfl ?_ ?_ rfl⟩
    · simp [inHand, phase]
    · simp [pending, inHand, phase]
  | scans phase => exact closes_scan hs.inStep small phase
  | delivers phase emitted =>
    refine ⟨le_refl _, rfl, fun hphase => (by cases hphase), .goesOn rfl ?_ ?_ rfl⟩
    · simp [inHand, phase, emitted]
    · simp [pending, inHand]
  | refuses phase emitted =>
    exact ⟨le_refl _, rfl, fun hphase => (by cases hphase),
      .isRefused (by rw [inHand, phase]) (by rw [emitted]) rfl⟩
  | @begins needed phase =>
    -- it would read now
    obtain ⟨hsets, hstop⟩ := hs.waiting (.inl ⟨needed, phase⟩) small
    have hroom := lt_limit_of_stop?_eq_none small hsets hstop
    have hends : s.beginRead limit true = s.finish .shutdown := by
      rw [beginRead, if_neg (Nat.not_le.2 hroom), if_pos rfl]
    rw [hends]
    refine ⟨le_refl _, rfl, fun hphase => (by cases hphase), .ends ?_ ?_⟩
    · exact pending_of_none (by rw [inHand, phase]) hsets
    · rw [closing, leftover_of_none hsets, hstop]
      rfl
  | ends phase | endsEarly phase | breaksOff phase | receives phase | fails phase =>
    exact absurd phase hphase

/-! ### The read in progress -/

/-- What a read in progress can come to, and what arrives with it. -/
inductive Returns (s : Session) : List Arrival → Session → Prop where
  | waits {t : Session} (phase : t.phase = .polling) (buffer : t.buffer = s.buffer) :
    Returns s [] t
  /-- Bytes, or a fault behind which the stream can be read on. -/
  | goesOn {t : Session} {arrival : Arrival} (benign : arrival.isBenign = true)
    (phase : t.phase = .scanning) (buffer : t.buffer = s.buffer ++ arrival.bytes) :
    Returns s [arrival] t
  | fails {t : Session} {error : IoError} (fatal : error.isTemporary = false)
    (phase : t.phase = .finished (.io error)) : Returns s [.fault error] t
  /-- The end of the stream, which may show in a read of no bytes. -/
  | ends {t : Session} {arrivals : List Arrival} (empty : arrivals = [] ∨ arrivals = [.chunk []])
    (phase : t.phase = .finished (ending s.buffer)) : Returns s arrivals t
  | breaksOff {t : Session} (phase : t.phase = .finished .shutdown) : Returns s [] t

/-- A read that idles returns nothing. -/
private theorem Idles.returns (h : s.Idles t) (hphase : s.phase = .polling) :
    t.reads = s.reads ∧ Returns s [] t := by
  cases h with
  | isFed => exact ⟨rfl, .waits hphase rfl⟩
  | discards phase =>
    rw [hphase] at phase
    cases phase
  | breaksOff => exact ⟨rfl, .breaksOff rfl⟩

/-- A read that was under way returns once. -/
private theorem Step.returns (hs : s.Poised limit) (small : s.buffer.length < 2 ^ 63)
    (hphase : s.phase = .polling) (h : Step limit down s sink stats s' sink' stats') :
    s'.reads = s.reads ∧ Returns s s.arriving s' := by
  obtain ⟨hsets, -⟩ := hs.waiting (.inr hphase) small
  cases h with
  | ends _ arrived =>
    rw [atEnd_eq hsets]
    exact ⟨rfl, .ends (.inl (arriving_of_nil arrived)) rfl⟩
  | @endsEarly arrivals _ arrived =>
    rw [atEnd_eq (s := { s with feed := { s.feed with arrivals } }) hsets]
    exact ⟨rfl, .ends (.inr (arriving_of_cons hphase arrived)) rfl⟩
  | breaksOff _ arrived =>
    rw [arriving_of_nil arrived]
    exact ⟨rfl, .breaksOff rfl⟩
  | @receives chunk arrivals _ arrived nonempty =>
    rw [arriving_of_cons hphase arrived]
    refine ⟨rfl, .goesOn ?_ rfl rfl⟩
    simp [Arrival.isBenign, nonempty]
  | @fails error arrivals _ arrived =>
    rw [arriving_of_cons hphase arrived, atFault]
    split
    · rename_i temporary
      exact ⟨rfl, .goesOn temporary rfl (List.append_nil _).symm⟩
    · rename_i fatal
      exact ⟨rfl, .fails (Bool.not_eq_true _ ▸ fatal) rfl⟩
  | opens phase | scans phase | delivers phase | refuses phase | begins phase =>
    rw [hphase] at phase
    cases phase

/-! ### What has become of a session -/

/-- What has become of a session since its client was shut down, and what it has offered since. -/
inductive Drains (limit : Nat) (s : Session) (sent : List Offer) (t : Session) : Prop where
  /-- What it has not offered yet is still to come. -/
  | goesOn (goes : t.phase.isOver = false) (answers : ∀ offer ∈ sent, offer.answer = .delivered)
    (pending : sent.map (·.batch) ++ t.pending = s.pending)
    (closing : t.closing limit = s.closing limit)
  /-- It has offered all that there was, and the sink has taken it. -/
  | ended (answers : ∀ offer ∈ sent, offer.answer = .delivered)
    (all : sent.map (·.batch) = s.pending) (phase : t.phase = .finished (s.closing limit))
  /-- The sink has refused the batch that it offered last. -/
  | wasRefused {before : List Offer} {last : Offer} {error : SinkError}
    (offers : sent = before ++ [last]) (answers : ∀ offer ∈ before, offer.answer = .delivered)
    (answer : last.answer = .refused error) (front : sent.map (·.batch) <+: s.pending)
    (phase : t.phase = .finished (.sink error))
  /-- It was given up before it started. -/
  | discarded (front : sent.map (·.batch) <+: s.pending) (phase : t.phase = .discarded)

private theorem Drains.idles {sent : List Offer} (h : Drains limit s sent t) (hidles : t.Idles s')
    (hphase : t.phase ≠ .polling) : Drains limit s sent s' := by
  cases hidles with
  | isFed =>
    cases h with
    | goesOn goes answers pending closing => exact .goesOn goes answers pending closing
    | ended answers all phase => exact .ended answers all phase
    | wasRefused offers answers answer front phase =>
      exact .wasRefused offers answers answer front phase
    | discarded front phase => exact .discarded front phase
  | discards created =>
    cases h with
    | goesOn goes answers pending => exact .discarded (pending ▸ List.prefix_append _ _) rfl
    | ended answers all phase | wasRefused offers answers answer front phase
    | discarded front phase =>
      rw [created] at phase
      cases phase
  | breaksOff polling => exact absurd polling hphase

/-- A session that makes a step has not ended. -/
private theorem Drains.of_goes {sent : List Offer} (h : Drains limit s sent t)
    (hgoes : t.phase.isOver = false) :
    (∀ offer ∈ sent, offer.answer = .delivered) ∧ sent.map (·.batch) ++ t.pending = s.pending ∧
      t.closing limit = s.closing limit := by
  cases h with
  | goesOn _ answers pending closing => exact ⟨answers, pending, closing⟩
  | ended answers all phase | wasRefused offers answers answer front phase
  | discarded front phase =>
    rw [phase] at hgoes
    cases hgoes

/-- Each step that closes a part is a part of the drain. -/
private theorem Drains.closes {sent offers : List Offer} (h : Drains limit s sent t)
    (hgoes : t.phase.isOver = false) (hcloses : Closes limit t sink s')
    (hbatches : offers.map (·.batch) = t.inHand)
    (hanswers : ∀ offer ∈ offers, offer.answer = (Sink.emit sink offer.batch).1) :
    Drains limit s (sent ++ offers) s' := by
  obtain ⟨answers, pending, closing⟩ := h.of_goes hgoes
  have hdelivered (hall : ∀ batch ∈ t.inHand, (Sink.emit sink batch).1 = .delivered) :
      ∀ offer ∈ sent ++ offers, offer.answer = .delivered := by
    intro offer hmem
    rcases List.mem_append.1 hmem with hmem | hmem
    · exact answers offer hmem
    · rw [hanswers offer hmem]
      exact hall _ (hbatches ▸ List.mem_map_of_mem hmem)
  cases hcloses with
  | goesOn goes answer pending' closing' =>
    refine .goesOn goes (hdelivered answer) ?_ (closing'.trans closing)
    rw [← pending, pending', List.map_append, hbatches, List.append_assoc]
  | ends pending' phase =>
    have hnone : t.inHand = [] := (List.append_eq_nil_iff.1 pending').1
    refine .ended (hdelivered (hnone ▸ List.forall_mem_nil _)) ?_ (closing ▸ phase)
    rw [← pending, pending', List.map_append, hbatches, hnone]
  | @isRefused batch error inHand answer phase =>
    rw [inHand] at hbatches
    obtain ⟨offer, rfl, rfl⟩ := List.map_eq_singleton_iff.1 hbatches
    refine .wasRefused rfl answers ?_ ?_ phase
    · rw [hanswers offer (List.mem_singleton_self _), answer]
    · rw [← pending, List.map_append, Session.pending, inHand, ← List.append_assoc]
      exact List.prefix_append _ _

end Session

namespace Hub

open Scanner Session

variable {σ : Type} [Sink σ] {limit : Nat} {sink : σ} {h h' : Hub σ} {i : Nat} {s : Session}

/-- **Every session of a run is poised.** -/
private theorem poised_of_reaches (hreach : Reaches act (.new limit sink) h)
    (hat : h.sessions[i]? = some s) : s.Poised h.limit := by
  have hall : ∀ (i : Nat) (s : Session), h.sessions[i]? = some s → s.Poised h.limit := by
    refine hreach.invariant (P := fun h : Hub σ =>
      ∀ (i : Nat) (s : Session), h.sessions[i]? = some s → s.Poised h.limit) ?_ ?_
    · intro h a h' hpoised hact i t hat
      have hchange := Change.of_act hact
      rw [hchange.limit_eq]
      rcases hchange.of_session hat with ⟨s, hs, hnext⟩ | ⟨_, feed, -, -, rfl⟩
      · exact (hpoised i s hs).next hnext
      · exact .of_not_waits (inStep_fresh _) (by simp [Waits, Session.new])
    · intro i s hat
      simp at hat
  exact hall i s hat

/-- A client that was shut down stays so. -/
private theorem Change.isCancelled (hchange : Change h h') {token : Token}
    (hdown : h.registry.isCancelled token = true) : h'.registry.isCancelled token = true := by
  rcases hchange.quiet_or_accepts with hquiet | ⟨peer, feed, rfl⟩
  · exact hquiet.isCancelled hdown
  · exact hdown

end Hub

namespace Ledger

open Session

variable {σ : Type} [Sink σ] {limit : Nat} {sink : σ} {l l' : Ledger σ} {i : Nat} {s t : Session}

/-- In `l₀` the client of the session `s` was shut down, and the session was not in a read.  In `l`
the session is `t`, and it has made the offers `sent` since. -/
structure Shut (l₀ : Ledger σ) (i : Nat) (s : Session) (l : Ledger σ) (t : Session)
    (sent : List Offer) : Prop where
  limit : l.hub.limit = l₀.hub.limit
  down : l.hub.registry.isCancelled t.token = true
  place : l.hub.sessions[i]? = some t
  poised : t.Poised l₀.hub.limit
  small : t.buffer.length < 2 ^ 63
  reads : t.reads = s.reads
  phase : t.phase ≠ .polling
  offersOf : l.offersOf i = l₀.offersOf i ++ sent
  readsOf : l.readsOf i = l₀.readsOf i
  drains : Drains l₀.hub.limit s sent t

/-- A session that is shut stays shut, whatever happens in the hub. -/
private theorem Shut.change {l₀ : Ledger σ} {sent : List Offer} (h : Shut l₀ i s l t sent)
    (hchange : Change l l') : ∃ t' sent', Shut l₀ i s l' t' sent' := by
  have hlimit := hchange.hub.limit_eq.trans h.limit
  have hdown := hchange.hub.isCancelled h.down
  rcases hchange.session h.place with ⟨u, place, hidles, hoffers, hreads⟩ |
    ⟨u, step, place, hoffers, hreads⟩
  · refine ⟨u, sent, hlimit, ?_, place, h.poised.idles hidles, ?_, hidles.reads_eq.trans h.reads,
      hidles.ne_polling h.phase, hoffers.trans h.offersOf, hreads.trans h.readsOf,
      h.drains.idles hidles h.phase⟩
    · rw [hidles.token_eq]
      exact hdown
    · rw [hidles.buffer_eq]
      exact h.small
  · have hgoes := step.isOver_eq_false
    rw [h.limit, h.down] at step
    obtain ⟨hbuffer, hreads', hphase, hcloses⟩ := step.closes h.poised h.small h.phase
    refine ⟨u, sent ++ l.offering i t, hlimit, ?_, place, h.poised.step step, ?_,
      hreads'.trans h.reads, hphase, ?_, ?_, ?_⟩
    · rw [step.sameClient.2]
      exact hdown
    · exact Nat.lt_of_le_of_lt hbuffer h.small
    · rw [hoffers, h.offersOf, List.append_assoc]
    · rw [hreads, h.readsOf, arriving_of_ne h.phase, List.append_nil]
    · refine h.drains.closes hgoes hcloses (batch_offering i t l) fun offer hmem => ?_
      obtain ⟨batch, -, rfl⟩ := List.mem_map.1 hmem
      rfl

private theorem Shut.of_reaches {sent : List Offer} {l₀ : Ledger σ} (h : Shut l₀ i s l t sent)
    (hreach : Reaches act l l') : ∃ t' sent', Shut l₀ i s l' t' sent' :=
  hreach.invariant (P := fun l' : Ledger σ => ∃ t' sent', Shut l₀ i s l' t' sent')
    (fun hshut hact => by
      obtain ⟨t', sent', h⟩ := hshut
      exact h.change (.of_act hact)) ⟨t, sent, h⟩

/-- A session that does not read stops at nothing but its end, if the sink answers. -/
private theorem isOver_of_rests (hreach : Reaches act (.new limit sink) l)
    (hanswers : Sink.Answers sink) (hat : l.hub.sessions[i]? = some s)
    (hphase : s.phase ≠ .polling) (hrests : l.hub.advance i = none) : s.phase.isOver = true := by
  rw [Hub.advance, hat, Option.bind_some, Option.map_eq_none_iff, step] at hrests
  cases phase : s.phase with
  | created | scanning | reading =>
    rw [phase] at hrests
    cases hrests
  | polling => exact absurd phase hphase
  | emitting batch =>
    rw [phase] at hrests
    simp only at hrests
    split at hrests
    · cases hrests
    · rename_i after hstalled
      rw [sink_of_reaches hreach] at hstalled
      exact absurd (congrArg Prod.fst hstalled) (hanswers l.batches batch)
    · cases hrests
  | finished | discarded => rfl

end Ledger

/-! ### Other clients -/

namespace Hub

variable {σ : Type} {h h' : Hub σ} {i j : Nat} {s t : Session}

/-- A session that is shut down is cancelled. -/
private theorem isCancelled_shutdown_self (hat : h.sessions[i]? = some s) :
    (h.shutdown i).registry.isCancelled s.token = true := by
  rw [shutdown, hat]
  simp [Registry.isCancelled, Registry.cancel]

/-- Shutting down one client leaves the others alone. -/
private theorem isCancelled_shutdown (hn : Numbered h) (hs : h.sessions[i]? = some s)
    (ht : h.sessions[j]? = some t) (hji : j ≠ i) :
    (h.shutdown i).registry.isCancelled t.token = h.registry.isCancelled t.token := by
  have hne : t.token ≠ s.token := by
    rw [(hn.session i s hs).2, (hn.session j t ht).2]
    simpa using hji
  rw [shutdown, hs]
  simp [Registry.isCancelled, Registry.cancel, hne]

variable [Sink σ]

/-- A step of one session leaves the others, their tokens and their entries alone. -/
private theorem others_of_advance (hn : Numbered h) (hadvance : h.advance i = some h')
    (ht : h.sessions[j]? = some t) (hji : j ≠ i) :
    h'.sessions[j]? = some t ∧ h'.registry.cancelled = h.registry.cancelled ∧
      (h.sessions.length ≤ 2 ^ 64 → ∀ handle ∈ h.registry.live, handle.id = t.id →
        handle ∈ h'.registry.live) := by
  obtain ⟨s, hs, hadvance⟩ := Option.bind_eq_some_iff.1 hadvance
  obtain ⟨⟨s', sink, stats⟩, hstep, rfl⟩ := Option.map_eq_some_iff.1 hadvance
  refine ⟨(List.getElem?_set_ne hji.symm).trans ht, cancelled_settle ..,
    fun hlength handle hmem hid => ?_⟩
  simp only [settle]
  split
  · refine List.mem_filter.2 ⟨hmem, bne_iff_ne.2 fun hsame => hji ?_⟩
    have hid' : t.id = s.id := by
      rw [← hid, hsame, (Session.Step.of_step hstep).sameClient.1]
    exact hn.eq_of_id_eq hlength ht hs hid'
  · exact hmem

end Hub

namespace Ledger

open Session

variable {σ : Type} [Sink σ] {limit : Nat} {sink : σ} {l l' : Ledger σ} {i : Nat} {s : Session}

/-- **Shutting down a client stops its reads, and not the delivery of what it has read.**

* Once the client is shut down and its session is not in a read, the session never reads again.  It
  offers the batches of what is buffered, in their order, and ends as its buffer tells, or with the
  error of a batch that is refused.  If the sink never keeps it waiting, it can do so at any time
  without anything from outside.
* A read in progress comes to an end with bytes or with a passing fault, behind which the first part
  says what happens; or the session ends, with a fatal error, with what the end of the stream makes
  of the rest in its buffer, or since the read is broken off.  Nothing is offered meanwhile.
* Neither the shutdown of the client nor a step of its session changes anything of another
  client: its session, its token, its entry or its account. -/
theorem shutdown_delivers_buffered (hreach : Reaches act (.new limit sink) l)
    (hat : l.hub.sessions[i]? = some s) (hgoes : s.phase.isOver = false)
    (small : s.buffer.length < 2 ^ 63) :
    (l.hub.registry.isCancelled s.token = true → s.phase ≠ .polling →
      (∀ l', Reaches act l l' → ∃ t sent, l'.hub.sessions[i]? = some t ∧ t.phase ≠ .polling ∧
        t.reads = s.reads ∧ l'.readsOf i = l.readsOf i ∧
        l'.offersOf i = l.offersOf i ++ sent ∧ Drains limit s sent t) ∧
      (Sink.Answers sink → ∀ l', Reaches act l l' →
        ∃ l'', Reaches act l' l'' ∧ l''.hub = l'.hub.run i ∧ l''.hub.isOver i = true)) ∧
    (s.phase = .polling → ∀ a l', l.act a = some l' →
      ∃ t arrivals, l'.hub.sessions[i]? = some t ∧ t.reads = s.reads ∧
        l'.offersOf i = l.offersOf i ∧ l'.readsOf i = l.readsOf i ++ arrivals ∧
        Returns s arrivals t) ∧
    (l.hub.shutdown i).registry.isCancelled s.token = true ∧
    (l.hub.shutdown i).sessions = l.hub.sessions ∧
    (l.hub.shutdown i).registry.live = l.hub.registry.live ∧
    (∀ (j : Nat) (t : Session), l.hub.sessions[j]? = some t → j ≠ i →
      (l.hub.shutdown i).registry.isCancelled t.token = l.hub.registry.isCancelled t.token ∧
      ∀ l', l.act (.advance i) = some l' → l'.hub.sessions[j]? = some t ∧
        l'.hub.registry.cancelled = l.hub.registry.cancelled ∧
        (l.hub.sessions.length ≤ 2 ^ 64 → ∀ handle ∈ l.hub.registry.live, handle.id = t.id →
          handle ∈ l'.hub.registry.live) ∧
        l'.offersOf j = l.offersOf j ∧ l'.readsOf j = l.readsOf j) := by
  have hhub := hub_of_reaches hreach
  have hn := Hub.numbered_of_reaches hhub
  have hpoised := Hub.poised_of_reaches hhub hat
  obtain rfl : l.hub.limit = limit := Hub.limit_eq_of_reaches hhub
  refine ⟨fun hdown hphase => ?_, fun hphase a l' hact => ?_, Hub.isCancelled_shutdown_self hat,
    by rw [Hub.shutdown, hat], by rw [Hub.shutdown, hat]; rfl, fun j t ht hji =>
    ⟨Hub.isCancelled_shutdown hn hat ht hji, fun l' hact => ?_⟩⟩
  · have hshut : Shut l i s l s [] := by
      refine ⟨rfl, hdown, hat, hpoised, small, rfl, hphase, (List.append_nil _).symm, rfl, ?_⟩
      exact .goesOn hgoes (List.forall_mem_nil _) rfl rfl
    refine ⟨fun l' hreach' => ?_, fun hanswers l' hreach' => ?_⟩
    · obtain ⟨t, sent, h⟩ := hshut.of_reaches hreach'
      exact ⟨t, sent, h.place, h.phase, h.reads, h.readsOf, h.offersOf, h.drains⟩
    · obtain ⟨hrun, hrests⟩ := Hub.reaches_run i l'.hub
      obtain ⟨l'', hreach'', hl''⟩ := exists_of_hub_reaches hrun
      obtain ⟨t, sent, h⟩ := hshut.of_reaches (hreach'.trans hreach'')
      refine ⟨l'', hreach'', hl'', ?_⟩
      rw [Hub.isOver, h.place]
      refine isOver_of_rests ((hreach.trans hreach').trans hreach'') hanswers h.place h.phase ?_
      rw [hl'']
      exact hrests
  · rcases (Change.of_act hact).session hat with ⟨t, hat', hidles, hoffers, hreads⟩ |
      ⟨t, step, hat', hoffers, hreads⟩
    · obtain ⟨hbegun, hreturns⟩ := hidles.returns hphase
      exact ⟨t, [], hat', hbegun, hoffers, by rw [hreads, List.append_nil], hreturns⟩
    · obtain ⟨hbegun, hreturns⟩ := step.returns hpoised small hphase
      refine ⟨t, s.arriving, hat', hbegun, ?_, hreads, hreturns⟩
      have hnone : s.inHand = [] := by rw [inHand, hphase]
      rw [hoffers, offering, hnone, List.map_nil, List.append_nil]
  · obtain ⟨hplace, hcancelled, hentries⟩ := Hub.others_of_advance hn (hub_of_act hact) ht hji
    obtain ⟨s', step, hoffers, hreads⟩ := exists_step_of_act hact hat
    refine ⟨hplace, hcancelled, hentries, ?_, ?_⟩
    · rw [offersOf_append_offering j i s hoffers, if_neg hji.symm, List.append_nil]
    · rw [readsOf_append_arriving j i s hreads, if_neg hji.symm, List.append_nil]

/-- One read brings two messages and the first byte of a third, and then the client is shut down
before any of them is decoded. -/
theorem shutdown_delivers_buffered_partial :
    ∃ (l : Ledger JsonLines) (s : Session), Reaches act (.new 64 ⟨.empty⟩) l ∧
      l.hub.sessions[0]? = some s ∧ s.phase = .scanning ∧ s.buffer.length = 11 ∧
      s.pending.length = 2 ∧ s.closing 64 = .shutdown ∧
      ∀ l', Reaches act l l' →
        (∃ t, l'.hub.sessions[0]? = some t ∧ t.reads = 1 ∧ t.phase ≠ .polling) ∧
        ∃ l'', Reaches act l' l'' ∧ l''.hub.isOver 0 = true := by
  let event : Bytes := [0x93, 0xA1, 0x61, 0x00, 0x80]
  let reading : List Hub.Action :=
    [.accept "a" ⟨[.chunk (event ++ event ++ [0x93]), .chunk event], false⟩] ++
      .replicate 4 (.advance 0) ++ [.shutdown 0]
  let ending : List Hub.Action := .replicate 6 (.advance 0)
  obtain ⟨l, hreading, s, hat, hphase, hbuffer, hreads, hdown, hnone, l', hending, t, hat', hends,
      hoffers⟩ :
      ∃ l : Ledger JsonLines, reading.foldlM act (.new 64 ⟨.empty⟩) = some l ∧
        ∃ s, l.hub.sessions[0]? = some s ∧ s.phase = .scanning ∧ s.buffer.length = 11 ∧
          s.reads = 1 ∧ l.hub.registry.isCancelled s.token = true ∧ l.offersOf 0 = [] ∧
          ∃ l', ending.foldlM act l = some l' ∧ ∃ t, l'.hub.sessions[0]? = some t ∧
            t.phase = .finished .shutdown ∧ (l'.offersOf 0).length = 2 :=
    ⟨_, by cbv, _, rfl, rfl, rfl, rfl, rfl, rfl, _, by cbv, _, rfl, rfl, rfl⟩
  have hreach : Reaches act (.new 64 (⟨.empty⟩ : JsonLines)) l := .of_actions reading hreading
  have hreach' : Reaches act l l' := .of_actions ending hending
  obtain ⟨hsafe, hlive⟩ := (shutdown_delivers_buffered hreach hat (by rw [hphase]; rfl)
    (by rw [hbuffer]; decide)).1 hdown (by rw [hphase]; exact fun h => by cases h)
  have hfaultless : Sink.Accepts (⟨.empty⟩ : JsonLines) :=
    JsonLines.accepts_of_faultless fun _ => rfl
  obtain ⟨u, sent, hu, -, -, -, hsent, hdrains⟩ := hsafe l' hreach'
  obtain rfl : t = u := Option.some.inj (hat'.symm.trans hu)
  rw [hnone, List.nil_append] at hsent
  have hall : s.pending.length = 2 ∧ s.closing 64 = .shutdown := by
    cases hdrains with
    | goesOn goes =>
      rw [hends] at goes
      cases goes
    | ended answers all phase =>
      rw [hends] at phase
      refine ⟨?_, (Phase.finished.inj phase).symm⟩
      rw [← all, List.length_map, ← hsent, hoffers]
    | wasRefused offers answers answer front phase | discarded front phase =>
      rw [hends] at phase
      cases phase
  refine ⟨l, s, hreach, hat, hphase, hbuffer, hall.1, hall.2, fun l₁ hreach₁ => ⟨?_, ?_⟩⟩
  · obtain ⟨t₁, -, hat₁, hphase₁, hreads₁, -⟩ := hsafe l₁ hreach₁
    exact ⟨t₁, hat₁, hreads₁.trans hreads, hphase₁⟩
  · obtain ⟨l₂, hreach₂, -, hover⟩ := hlive hfaultless.answers l₁ hreach₁
    exact ⟨l₂, hreach₂, hover⟩

end Ledger

end ForwardIntake
