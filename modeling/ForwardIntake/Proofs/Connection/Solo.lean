import ForwardIntake.Proofs.Connection.Ledger

/-!
# Sessions by themselves

A session that nobody shuts down asks the outside for nothing but its stream and the answer of the
sink.  So on sinks that take everything it makes the same steps whatever the sink and the counters
are, and adds the same to them (`Session.step_elsewhere`); and neither its client nor what comes
later on its stream has to do with a step that it can make now (`Session.Step.onward`).

`Solo` is a session with the batches that it has offered and what it has counted, and `Solo.next` is
its step.  There is one way for it to go, so of two runs from one beginning one goes on where the
other stops (`Solo.reaches_or_reaches`).  `Hub.alone` is the hub on which a stream is served alone;
its session runs like the solo session (`Hub.reaches_alone`).
-/

namespace ForwardIntake

/-! ### Counters -/

namespace Stats

/-- Counters are equal if all four of them are. -/
private theorem ext {a b : Stats} (haccepted : a.accepted = b.accepted)
    (hentries : a.entries = b.entries)
    (hrecords : a.records = b.records) (hbytes : a.bytes = b.bytes) : a = b := by
  cases a
  cases b
  simp only [mk.injEq]
  exact ⟨haccepted, hentries, hrecords, hbytes⟩

/-- The counters of two parts together. -/
instance : Add Stats :=
  ⟨fun a b =>
    ⟨a.accepted + b.accepted, a.entries + b.entries, a.records + b.records, a.bytes + b.bytes⟩⟩

instance : Zero Stats := ⟨zero⟩

instance : AddCommMonoid Stats where
  add_assoc a b c := ext (UInt64.add_assoc ..) (UInt64.add_assoc ..) (UInt64.add_assoc ..)
    (UInt64.add_assoc ..)
  zero_add a := ext (UInt64.zero_add _) (UInt64.zero_add _) (UInt64.zero_add _)
    (UInt64.zero_add _)
  add_zero a := ext (UInt64.add_zero _) (UInt64.add_zero _) (UInt64.add_zero _)
    (UInt64.add_zero _)
  add_comm a b := ext (UInt64.add_comm ..) (UInt64.add_comm ..) (UInt64.add_comm ..)
    (UInt64.add_comm ..)
  nsmul := nsmulRec

/-- A client is counted on top of the rest. -/
theorem countClient_eq (s : Stats) : s.countClient = s + zero.countClient :=
  ext rfl (UInt64.add_zero _).symm (UInt64.add_zero _).symm (UInt64.add_zero _).symm

/-- A step is counted on top of the rest. -/
private theorem countSets_countBytes_eq (s : Stats) (sets : List RecordSet) (n : Nat) :
    (s.countSets sets).countBytes n = s + (zero.countSets sets).countBytes n := by
  refine ext (UInt64.add_zero _).symm ?_ ?_ ?_
  · exact congrArg (s.entries + ·) (UInt64.zero_add _).symm
  · exact congrArg (s.records + ·) (UInt64.zero_add _).symm
  · exact congrArg (s.bytes + ·) (UInt64.zero_add _).symm

end Stats

/-! ### Recorders -/

theorem Sink.Accepts.emitAll {σ : Type} [Sink σ] {sink : σ} (h : Accepts sink)
    (batches : List Batch) : Accepts (emitAll sink batches) := by
  intro before batch
  have hall := h (batches ++ before) batch
  rwa [Sink.emitAll, List.foldl_append] at hall

/-- A sink that takes every batch and keeps it. -/
structure Recorder where
  /-- The batches, oldest first. -/
  batches : List Batch

namespace Recorder

instance : Sink Recorder := ⟨fun r batch => (.delivered, ⟨r.batches ++ [batch]⟩)⟩

private theorem accepts (r : Recorder) : Sink.Accepts r :=
  fun _ _ => rfl

private theorem emitAll_eq (r : Recorder) (batches : List Batch) :
    Sink.emitAll r batches = ⟨r.batches ++ batches⟩ := by
  induction batches generalizing r with
  | nil => rw [List.append_nil]; rfl
  | cons batch batches ih =>
    rw [List.append_cons]
    exact ih ⟨r.batches ++ [batch]⟩

end Recorder

/-! ### Steps -/

namespace Session

variable {limit : Nat} {down : Bool} {s s' : Session}

/-- What is counted in a step from one session to the other. -/
def gain (s s' : Session) : Stats :=
  (Stats.zero.countSets s'.inHand.flatten).countBytes (s.arriving.map Arrival.size).sum

section Sinks

variable {σ τ : Type} [Sink σ] [Sink τ] {sink sink' : σ} {stats stats' : Stats} {other : τ}

/-- A step adds its gain to the counters. -/
theorem Step.stats_eq (h : Step limit down s sink stats s' sink' stats') :
    stats' = stats + s.gain s' := by
  obtain ⟨sets, hinHand, hstats⟩ := h.counted
  have hsets : s'.inHand.flatten = sets := by
    rw [hinHand, ← List.flatMap_def, List.flatMap_singleton']
  rw [gain, hsets, hstats]
  exact stats.countSets_countBytes_eq sets _

/-- Which way a session goes depends neither on the sink, as long as it takes everything, nor on the
counters. -/
private theorem step_map_fst (hsink : Sink.Accepts sink) (hother : Sink.Accepts other)
    (limit : Nat) (down : Bool) (stats own : Stats) (s : Session) :
    (s.step limit down sink stats).map (·.1) = (s.step limit down other own).map (·.1) := by
  rw [step, step]
  cases s.phase with
  | created | scanning | reading | finished | discarded => rfl
  | emitting batch =>
    simp only
    rw [hsink.emit_eq batch, hother.emit_eq batch]
    rfl
  | polling =>
    cases s.feed.arrivals with
    | nil =>
      simp only
      split
      · rfl
      · split
        · rfl
        · rfl
    | cons arrival arrivals =>
      cases arrival with
      | chunk bytes =>
        cases bytes with
        | nil => rfl
        | cons byte bytes => rfl
      | fault error => rfl

/-- A session that can make a step makes it with any sink that takes everything, and adds the same
to the counters. -/
private theorem step_elsewhere (hsink : Sink.Accepts sink) (hother : Sink.Accepts other)
    (own : Stats) (h : s.step limit down sink stats = some (s', sink', stats')) :
    s.step limit down other own = some (s', Sink.emitAll other s.inHand, own + s.gain s') := by
  have hsame := step_map_fst hsink hother limit down stats own s
  rw [h, Option.map_some, eq_comm, Option.map_eq_some_iff] at hsame
  obtain ⟨⟨t, other', own'⟩, hstep, rfl⟩ := hsame
  have hstep' := Step.of_step hstep
  rw [hstep, hstep'.sink_eq, hstep'.stats_eq]

end Sinks

/-! ### Streams -/

/-- The session as that of another client, on another stream. -/
def onto (id : ConnectionId) (token : Token) (feed : Feed) (s : Session) : Session :=
  { s with id, token, feed }

section Onto

variable (id : ConnectionId) (token : Token) (feed : Feed)

/-- Decoding does not depend on the client. -/
private theorem decode_onto :
    (s.onto id token feed).decode = s.decode.map fun p => (p.1.onto id token feed, p.2) := by
  rw [decode, decode, onto]
  cases Message.decode s.buffer <;> rfl

private theorem getD_decode_onto {other other' : Session × List RecordSet}
    (h : other' = (other.1.onto id token feed, other.2)) :
    (s.onto id token feed).decode.getD other' =
      ((s.decode.getD other).1.onto id token feed, (s.decode.getD other).2) := by
  rw [decode_onto, h]
  cases s.decode <;> rfl

private theorem await_onto (needed : Nat) :
    (s.onto id token feed).await limit needed = (s.await limit needed).onto id token feed := by
  rw [await, await]
  split
  · rfl
  · rfl

private theorem scan_onto : (s.onto id token feed).scan limit =
    ((s.scan limit).1.onto id token feed, (s.scan limit).2) := by
  let scanned : Session := { s with scanner := (s.scanner.scan s.buffer).2 }
  have hawait (needed : Nat) : ((scanned.onto id token feed).await limit needed, []) =
      ((scanned.await limit needed).onto id token feed, ([] : List RecordSet)) :=
    congrArg (·, []) (await_onto id token feed needed)
  simp only [scan, onto]
  cases (s.scanner.scan s.buffer).1 with
  | incomplete needed => exact hawait needed
  | complete | invalid =>
    exact getD_decode_onto (s := scanned) id token feed (hawait (s.buffer.length + 1))

private theorem beginRead_onto : (s.onto id token feed).beginRead limit down =
    (s.beginRead limit down).onto id token feed := by
  rw [beginRead, beginRead, apply_ite (onto id token feed), apply_ite (onto id token feed)]
  rfl

private theorem atEnd_onto : (s.onto id token feed).atEnd =
    (s.atEnd.1.onto id token feed, s.atEnd.2) := by
  rw [atEnd, atEnd]
  by_cases hempty : s.buffer.isEmpty = true
  · rw [if_pos hempty, if_pos (show (s.onto id token feed).buffer.isEmpty = true from hempty)]
    rfl
  · rw [if_neg hempty, if_neg (show ¬ (s.onto id token feed).buffer.isEmpty = true from hempty)]
    exact getD_decode_onto id token feed rfl

private theorem atFault_onto (error : IoError) :
    (s.onto id token feed).atFault error = (s.atFault error).onto id token feed := by
  rw [atFault, atFault]
  split
  · rfl
  · rfl

end Onto

/-! A session that is put onto its own stream is what it was, so none of these touches it. -/

/-- A scan leaves the input. -/
private theorem feed_scan : (s.scan limit).1.feed = s.feed :=
  congrArg (·.1.feed) (scan_onto (s := s) s.id s.token s.feed)

private theorem feed_beginRead : (s.beginRead limit down).feed = s.feed :=
  congrArg (·.feed) (beginRead_onto (s := s) s.id s.token s.feed)

private theorem feed_atEnd : s.atEnd.1.feed = s.feed :=
  congrArg (·.1.feed) (atEnd_onto (s := s) s.id s.token s.feed)

private theorem feed_atFault (error : IoError) : (s.atFault error).feed = s.feed :=
  congrArg (·.feed) (atFault_onto (s := s) s.id s.token s.feed error)

section Streams

variable {σ : Type} [Sink σ] {sink sink' : σ} {stats stats' : Stats}

/-- Every step is what the session does. -/
private theorem Step.step_eq (h : Step limit false s sink stats s' sink' stats') :
    s.step limit false sink stats = some (s', sink', stats') := by
  cases h with
  | opens phase | scans phase | begins phase => simp only [step, phase]
  | delivers phase emitted | refuses phase emitted => simp only [step, phase, emitted]
  | ends phase arrived ended => simp only [step, phase, arrived, ended, if_true]
  | endsEarly phase arrived => simp only [step, phase, arrived]
  | breaksOff phase arrived isDown => cases isDown
  | @receives chunk arrivals phase arrived nonempty =>
    cases chunk with
    | nil => exact absurd rfl nonempty
    | cons byte bytes => simp only [step, phase, arrived]
  | fails phase arrived => simp only [step, phase, arrived]

/-- A step takes from the stream what it reads. -/
theorem Step.feed (h : Step limit down s sink stats s' sink' stats') :
    s.feed = ⟨s.arriving ++ s'.feed.arrivals, s'.feed.ended⟩ := by
  have hstay (hnone : s.arriving = []) (hsame : s'.feed = s.feed) :
      s.feed = ⟨s.arriving ++ s'.feed.arrivals, s'.feed.ended⟩ := by
    rw [hnone, hsame, List.nil_append]
  have htake {arrival : Arrival} {arrivals : List Arrival} (phase : s.phase = .polling)
      (arrived : s.feed.arrivals = arrival :: arrivals)
      (hfeed : s'.feed = ⟨arrivals, s.feed.ended⟩) :
      s.feed = ⟨s.arriving ++ s'.feed.arrivals, s'.feed.ended⟩ := by
    rw [arriving_of_cons phase arrived, hfeed, List.singleton_append, ← arrived]
  cases h with
  | opens phase | delivers phase | refuses phase => exact hstay (by simp only [arriving, phase]) rfl
  | scans phase => exact hstay (by simp only [arriving, phase]) feed_scan
  | begins phase => exact hstay (by simp only [arriving, phase]) feed_beginRead
  | ends phase arrived => exact hstay (arriving_of_nil arrived) feed_atEnd
  | breaksOff phase arrived => exact hstay (arriving_of_nil arrived) rfl
  | endsEarly phase arrived => exact htake phase arrived feed_atEnd
  | receives phase arrived => exact htake phase arrived rfl
  | fails phase arrived => exact htake phase arrived (feed_atFault _)

/-- The session as that of another client, on a stream on which more comes. -/
def onward (id : ConnectionId) (token : Token) (more : List Arrival) (ended : Bool)
    (s : Session) : Session :=
  s.onto id token ⟨s.feed.arrivals ++ more, ended⟩

/-- **Steps do not look ahead.**  What a session can do now, the session of another client does as
well on a stream on which more comes. -/
private theorem Step.onward (h : Step limit false s sink stats s' sink' stats') (id : ConnectionId)
    (token : Token) {more : List Arrival} {ended : Bool}
    (hopen : s.feed.ended = true → more = [] ∧ ended = true) :
    Step limit false (s.onward id token more ended) sink stats (s'.onward id token more ended)
      sink' stats' := by
  cases h with
  | opens phase => exact .opens phase
  | scans phase =>
    have h : Step limit false (s.onward id token more ended) sink stats _ _ _ := .scans phase
    rw [Session.onward, scan_onto] at h
    rw [Session.onward, Session.onward, feed_scan]
    exact h
  | delivers phase emitted => exact .delivers phase emitted
  | refuses phase emitted => exact .refuses phase emitted
  | begins phase =>
    have h : Step limit false (s.onward id token more ended) sink stats _ _ _ := .begins phase
    rw [Session.onward, beginRead_onto] at h
    rw [Session.onward, Session.onward, feed_beginRead]
    exact h
  | ends phase arrived isEnded =>
    obtain ⟨rfl, rfl⟩ := hopen isEnded
    have h : Step limit false (s.onward id token [] true) sink stats _ _ _ :=
      .ends phase ((List.append_nil _).trans arrived) rfl
    rw [Session.onward, atEnd_onto] at h
    rw [Session.onward, Session.onward, feed_atEnd]
    exact h
  | breaksOff phase arrived isDown => cases isDown
  | @endsEarly arrivals phase arrived =>
    let u : Session := { s with feed := { s.feed with arrivals } }
    have h : Step limit false (s.onward id token more ended) sink stats
        (u.onto id token ⟨arrivals ++ more, ended⟩).atEnd.1 sink
        (stats.countSets (u.onto id token ⟨arrivals ++ more, ended⟩).atEnd.2) :=
      .endsEarly phase (congrArg (· ++ more) arrived)
    rw [atEnd_onto] at h
    have hfeed : u.atEnd.1.onward id token more ended =
        u.atEnd.1.onto id token ⟨arrivals ++ more, ended⟩ := by rw [Session.onward, feed_atEnd]
    exact hfeed ▸ h
  | @receives chunk arrivals phase arrived nonempty =>
    exact .receives phase (congrArg (· ++ more) arrived) nonempty
  | @fails error arrivals phase arrived =>
    let u : Session := { s with feed := { s.feed with arrivals } }
    have h : Step limit false (s.onward id token more ended) sink stats
        ((u.onto id token ⟨arrivals ++ more, ended⟩).atFault error) sink stats :=
      .fails phase (congrArg (· ++ more) arrived)
    rw [atFault_onto] at h
    have hfeed : (u.atFault error).onward id token more ended =
        (u.atFault error).onto id token ⟨arrivals ++ more, ended⟩ := by
      rw [Session.onward, feed_atFault]
    exact hfeed ▸ h

/-- No session gives itself up by a turn. -/
private theorem Turn.phase_ne_discarded {sets : List RecordSet} (h : s.Turn s' sets) :
    s'.phase ≠ .discarded := by
  cases h with
  | decodes decoded =>
    cases decoded with
    | skips | takes | fails => exact Phase.noConfusion
  | ends | waits | polls | retries => exact Phase.noConfusion

/-- No session gives itself up. -/
private theorem Step.phase_ne_discarded (h : Step limit down s sink stats s' sink' stats') :
    s'.phase ≠ .discarded := by
  cases h with
  | opens | delivers | refuses | breaksOff | receives => exact Phase.noConfusion
  | scans phase => exact (turn_scan phase).phase_ne_discarded
  | begins phase => exact (turn_beginRead phase).phase_ne_discarded
  | ends | endsEarly => exact turn_atEnd.phase_ne_discarded
  | @fails error arrivals phase =>
    exact (turn_atFault (s := s.withArrivals arrivals) phase error).phase_ne_discarded

end Streams

/-- The session as that of no client in particular. -/
def bare (s : Session) : Session :=
  s.onto 0 ⟨0⟩ s.feed

/-- Input that has ended goes on with nothing. -/
private theorem onward_nil {ended : Bool} (h : s.feed.ended = ended) :
    s.onward 0 ⟨0⟩ [] ended = s.bare := by
  rw [onward, bare, List.append_nil, ← h]

end Session

/-! ### Solo runs -/

/-- A session, with the batches that it has offered and what it has counted. -/
structure Solo where
  session : Session
  batches : List Batch
  stats : Stats

namespace Solo

open Session

variable {limit : Nat} {p q r : Solo}

/-- A session at the beginning of its stream, its client counted. -/
def begin (feed : Feed) : Solo :=
  ⟨.new 0 ⟨0⟩ feed, [], Stats.zero.countClient⟩

/-- A step of the session, whom nobody shuts down, with a sink that takes everything. -/
def next (limit : Nat) (p : Solo) (_ : Unit) : Option Solo :=
  (p.session.step limit false (⟨p.batches⟩ : Recorder) p.stats).map
    fun (session, recorder, stats) => ⟨session, recorder.batches, stats⟩

/-- A solo run takes steps of its session. -/
private theorem step_of_next (h : p.next limit () = some q) :
    Step limit false p.session (⟨p.batches⟩ : Recorder) p.stats q.session ⟨q.batches⟩ q.stats := by
  obtain ⟨⟨session, recorder, stats⟩, hstep, rfl⟩ := Option.map_eq_some_iff.1 h
  exact .of_step hstep

/-- And every step of its session. -/
private theorem next_eq_some
    (h : Step limit false p.session (⟨p.batches⟩ : Recorder) p.stats q.session
    ⟨q.batches⟩ q.stats) : p.next limit () = some q := by
  rw [next, h.step_eq]
  rfl

section Sinks

variable {σ : Type} [Sink σ] {sink sink' : σ} {stats stats' own : Stats} {s s' : Session}
  {batches : List Batch}

/-- A session makes solo steps with every sink that takes everything. -/
theorem next_bare (hsink : Sink.Accepts sink)
    (h : s.step limit false sink stats = some (s', sink', stats')) :
    next limit ⟨s.bare, batches, own⟩ () =
      some ⟨s'.bare, batches ++ s.inHand, own + s.gain s'⟩ := by
  have helsewhere := step_elsewhere hsink (Recorder.accepts ⟨batches⟩) own h
  rw [Recorder.emitAll_eq] at helsewhere
  have hstep := Step.of_step helsewhere
  have honward := hstep.onward 0 ⟨0⟩ fun hended => ⟨rfl, hended⟩
  rw [onward_nil rfl, onward_nil (congrArg Feed.ended hstep.feed).symm] at honward
  exact next_eq_some honward

/-- A session that waits is at the end of its solo way. -/
theorem next_bare_eq_none (hsink : Sink.Accepts sink)
    (h : s.step limit false sink stats = none) : next limit ⟨s.bare, batches, own⟩ () = none := by
  rw [Option.eq_none_iff_forall_not_mem]
  intro q hnext
  have honward := (step_of_next hnext).onward s.id s.token fun hended => ⟨rfl, hended⟩
  have hback : s.bare.onward s.id s.token [] s.bare.feed.ended = s := by
    rw [onward, List.append_nil]
    rfl
  have hstep := step_elsewhere (Recorder.accepts ⟨batches⟩) hsink stats honward.step_eq
  rw [hback, h] at hstep
  cases hstep

end Sinks

/-! There is one way to go. -/

/-- Of two solo runs one goes on from the other. -/
private theorem reaches_or_reaches (hq : Reaches (next limit) p q) (hr : Reaches (next limit) p r) :
    Reaches (next limit) q r ∨ Reaches (next limit) r q := by
  refine Relation.ReflTransGen.total_of_right_unique ?_ hq hr
  rintro t u v ⟨_, hu⟩ ⟨_, hv⟩
  exact Option.some.inj (hu.symm.trans hv)

/-- A run that rests stays where it is. -/
theorem eq_of_rests (h : Reaches (next limit) p q) (hrests : p.next limit () = none) : q = p := by
  rcases h.cases_head with rfl | ⟨r, ⟨_, hact⟩, -⟩
  · rfl
  · cases hrests.symm.trans hact

/-- Whoever is on the way to a place where it ends comes there. -/
theorem reaches_of_rests (hq : Reaches (next limit) p q) (hr : Reaches (next limit) p r)
    (hrests : r.next limit () = none) : Reaches (next limit) q r := by
  rcases reaches_or_reaches hq hr with hon | hback
  · exact hon
  · rw [eq_of_rests hback hrests]
    exact .refl _ _

/-- A session that runs alone is not discarded. -/
theorem phase_ne_discarded {feed : Feed} (h : Reaches (next limit) (.begin feed) p) :
    p.session.phase ≠ .discarded := by
  refine h.invariant (P := fun p : Solo => p.session.phase ≠ .discarded) ?_ Phase.noConfusion
  intro p _ q _ hact
  exact (step_of_next hact).phase_ne_discarded

/-- What was emitted stays emitted. -/
theorem batches_prefix (h : Reaches (next limit) p q) : p.batches <+: q.batches := by
  refine h.invariant (P := fun q : Solo => p.batches <+: q.batches) ?_ List.prefix_rfl
  rintro q _ r hprefix hact
  have hsink := (step_of_next hact).sink_eq
  rw [Recorder.emitAll_eq] at hsink
  have hbatches : r.batches = q.batches ++ q.session.inHand := congrArg Recorder.batches hsink
  rw [hbatches]
  exact hprefix.trans (List.prefix_append _ _)

/-! ### Streams on which more comes -/

/-- The solo session on a stream on which more comes. -/
def onward (more : List Arrival) (ended : Bool) (p : Solo) : Solo :=
  { p with session := p.session.onward 0 ⟨0⟩ more ended }

/-- **A solo run goes on** in the same way when more input follows. -/
theorem reaches_onward (h : Reaches (next limit) p q) (more : List Arrival) (ended : Bool)
    (hopen : p.session.feed.ended = true → more = [] ∧ ended = true) :
    Reaches (next limit) (p.onward more ended) (q.onward more ended) := by
  have hall : Reaches (next limit) (p.onward more ended) (q.onward more ended) ∧
      q.session.feed.ended = p.session.feed.ended := by
    refine h.invariant (P := fun q : Solo =>
      Reaches (next limit) (p.onward more ended) (q.onward more ended) ∧
        q.session.feed.ended = p.session.feed.ended) ?_ ⟨.refl _ _, rfl⟩
    rintro q a r ⟨hreach, hended⟩ hact
    have hstep := step_of_next hact
    have honward := hstep.onward 0 ⟨0⟩ fun h => hopen (hended ▸ h)
    refine ⟨hreach.tail (a := a) (next_eq_some honward), ?_⟩
    rw [← hended, hstep.feed]
  exact hall.1

end Solo

/-! ### Alone on a hub -/

namespace Hub

section Calm

variable {σ : Type} {h : Hub σ} {i : Nat} {s : Session}

/-- In a calm hub nobody is cancelled. -/
theorem isCancelled_of_calm (hcalm : h.registry.cancelled = []) (token : Token) :
    h.registry.isCancelled token = false := by
  rw [Registry.isCancelled, hcalm]
  rfl

/-- In a calm hub a session steps by itself. -/
theorem advance_of_calm [Sink σ] (hat : h.sessions[i]? = some s)
    (hcalm : h.registry.cancelled = []) : h.advance i =
      (s.step h.limit false h.sink h.stats).map fun (s, sink, stats) =>
        ({ h with sink, stats } : Hub σ).settle i s := by
  rw [advance, hat, Option.bind_some, isCancelled_of_calm hcalm]

end Calm

/-- The hub on which one stream is served alone, as far as it goes. -/
def alone (limit : Nat) (feed : Feed) : Hub Recorder :=
  ((Hub.new limit ⟨[]⟩).accept "" feed).run 0

/-- Running a session on a recorder is the solo run to its end. -/
private theorem reaches_solo_run {s : Session} (i : Nat) (h : Hub Recorder)
    (hat : h.sessions[i]? = some s) (hcalm : h.registry.cancelled = []) :
    ∃ t, (h.run i).sessions[i]? = some t ∧
      Reaches (Solo.next h.limit) ⟨s, h.sink.batches, h.stats⟩
        ⟨t, (h.run i).sink.batches, (h.run i).stats⟩ ∧
      Solo.next h.limit ⟨t, (h.run i).sink.batches, (h.run i).stats⟩ () = none := by
  fun_induction Hub.run i h generalizing s with
  | case1 h next hadvance _ ih =>
    rw [advance_of_calm hat hcalm] at hadvance
    obtain ⟨⟨s', sink, stats⟩, hstep, rfl⟩ := Option.map_eq_some_iff.1 hadvance
    have hat' : (({ h with sink, stats } : Hub Recorder).settle i s').sessions[i]? = some s' :=
      List.getElem?_set_self (List.getElem?_eq_some_iff.1 hat).1
    have hfirst : Solo.next h.limit ⟨s, h.sink.batches, h.stats⟩ () =
        some ⟨s', sink.batches, stats⟩ := by
      rw [Solo.next]
      exact congrArg (Option.map _) hstep
    obtain ⟨t, hat'', hreach, hrests⟩ := ih hat' ((cancelled_settle ..).trans hcalm)
    exact ⟨t, hat'', Reaches.trans (.tail (.refl _ _) hfirst) hreach, hrests⟩
  | case2 h hadvance =>
    rw [advance_of_calm hat hcalm, Option.map_eq_none_iff] at hadvance
    refine ⟨s, hat, .refl _ _, ?_⟩
    rw [Solo.next]
    exact congrArg (Option.map _) hadvance

/-- A client alone in a hub makes a solo run to its end. -/
theorem reaches_alone (limit : Nat) (feed : Feed) :
    ∃ t, (alone limit feed).sessions[0]? = some t ∧
      Reaches (Solo.next limit) (.begin feed)
        ⟨t, (alone limit feed).sink.batches, (alone limit feed).stats⟩ ∧
      Solo.next limit ⟨t, (alone limit feed).sink.batches, (alone limit feed).stats⟩ () = none :=
  reaches_solo_run (s := .new 0 ⟨0⟩ feed) 0
    ((Hub.new limit (⟨[]⟩ : Recorder)).accept "" feed) rfl rfl

end Hub

end ForwardIntake
