import ForwardIntake.Connection.Hub
import ForwardIntake.Proofs.Runs

/-!
# What sessions and hubs can do

The steps of a session and the actions of a hub, taken apart once: `Session.Step` says all that a
step can make of a session, of the sink and of the counters, and `Hub.Change` all that an action can
make of a hub.  Facts about runs are proved by one case for each of their constructors.  The parts
of a step, from scanning to the end of the stream, come to few things, and these are taken apart
once as well (`Session.Turn`, with `Session.Decodes` for what is decoded).  For facts about single
sessions it is enough to look at what can become of one of them (`Session.Next`), since every
session of a hub is either new or comes from the session at its place (`Hub.Change.of_session`).
-/

namespace ForwardIntake

variable {σ : Type} [Sink σ]

namespace Session

variable {limit : Nat} {down : Bool} {s s' : Session} {sink sink' : σ} {stats stats' : Stats}

/-- All that a step can make of a session, the sink and the counters. -/
inductive Step (limit : Nat) (down : Bool) (s : Session) (sink : σ) (stats : Stats) :
    Session → σ → Stats → Prop where
  | opens (phase : s.phase = .created) :
    Step limit down s sink stats { s with phase := .scanning } sink stats
  | scans (phase : s.phase = .scanning) :
    Step limit down s sink stats (s.scan limit).1 sink (stats.countSets (s.scan limit).2)
  | delivers {batch : Batch} {after : σ} (phase : s.phase = .emitting batch)
    (emitted : Sink.emit sink batch = (.delivered, after)) :
    Step limit down s sink stats { s with phase := .scanning } after stats
  | refuses {batch : Batch} {error : SinkError} {after : σ} (phase : s.phase = .emitting batch)
    (emitted : Sink.emit sink batch = (.refused error, after)) :
    Step limit down s sink stats (s.finish (.sink error)) after stats
  | begins {needed : Nat} (phase : s.phase = .reading needed) :
    Step limit down s sink stats (s.beginRead limit down) sink stats
  /-- The stream has ended. -/
  | ends (phase : s.phase = .polling) (arrived : s.feed.arrivals = [])
    (ended : s.feed.ended = true) :
    Step limit down s sink stats s.atEnd.1 sink (stats.countSets s.atEnd.2)
  /-- A read comes to no bytes, which is the end of the stream as well. -/
  | endsEarly {arrivals : List Arrival} (phase : s.phase = .polling)
    (arrived : s.feed.arrivals = .chunk [] :: arrivals) :
    Step limit down s sink stats { s with feed := { s.feed with arrivals } }.atEnd.1 sink
      (stats.countSets { s with feed := { s.feed with arrivals } }.atEnd.2)
  | breaksOff (phase : s.phase = .polling) (arrived : s.feed.arrivals = [])
    (isDown : down = true) :
    Step limit down s sink stats (s.finish .shutdown) sink stats
  | receives {chunk : Bytes} {arrivals : List Arrival} (phase : s.phase = .polling)
    (arrived : s.feed.arrivals = .chunk chunk :: arrivals) (nonempty : chunk ≠ []) :
    Step limit down s sink stats { s with
      buffer := s.buffer ++ chunk
      feed := { s.feed with arrivals }
      phase := .scanning } sink (stats.countBytes chunk.length)
  | fails {error : IoError} {arrivals : List Arrival} (phase : s.phase = .polling)
    (arrived : s.feed.arrivals = .fault error :: arrivals) :
    Step limit down s sink stats ({ s with feed := { s.feed with arrivals } }.atFault error)
      sink stats

/-- What a session does is a step. -/
theorem Step.of_step (h : s.step limit down sink stats = some (s', sink', stats')) :
    Step limit down s sink stats s' sink' stats' := by
  rw [step] at h
  cases hphase : s.phase with
  | created =>
    rw [hphase] at h
    cases h
    exact .opens hphase
  | scanning =>
    rw [hphase] at h
    cases h
    exact .scans hphase
  | emitting batch =>
    simp only [hphase] at h
    split at h
    · rename_i after hemitted
      cases h
      exact .delivers hphase hemitted
    · cases h
    · rename_i error after hemitted
      cases h
      exact .refuses hphase hemitted
  | reading needed =>
    rw [hphase] at h
    cases h
    exact .begins hphase
  | polling =>
    simp only [hphase] at h
    cases harrived : s.feed.arrivals with
    | nil =>
      simp only [harrived] at h
      split at h
      · rename_i hended
        cases h
        exact .ends hphase harrived hended
      · split at h
        · rename_i hdown
          cases h
          exact .breaksOff hphase harrived hdown
        · cases h
    | cons arrival arrivals =>
      cases arrival with
      | chunk bytes =>
        cases bytes with
        | nil =>
          simp only [harrived] at h
          cases h
          have hends : Step limit down s sink stats _ _ _ := .endsEarly hphase harrived
          rwa [hphase] at hends
        | cons byte bytes =>
          simp only [harrived] at h
          cases h
          exact .receives hphase harrived (List.cons_ne_nil byte bytes)
      | fault error =>
        simp only [harrived] at h
        cases h
        have hfails : Step limit down s sink stats _ _ _ := .fails hphase harrived
        rwa [hphase] at hfails
  | finished outcome =>
    rw [hphase] at h
    cases h
  | discarded =>
    rw [hphase] at h
    cases h

/-- A session that is over makes no step. -/
theorem Step.isOver_eq_false (h : Step limit down s sink stats s' sink' stats') :
    s.phase.isOver = false := by
  cases h with
  | opens phase | scans phase | delivers phase | refuses phase | begins phase | ends phase
  | endsEarly phase | breaksOff phase | receives phase | fails phase => simp [phase]

/-- A session that scans goes on by its scan. -/
theorem Step.eq_scan (h : Step limit down s sink stats s' sink' stats')
    (hphase : s.phase = .scanning) : s' = (s.scan limit).1 := by
  cases h with
  | scans => rfl
  | opens phase | delivers phase | refuses phase | begins phase | ends phase
  | endsEarly phase | breaksOff phase | receives phase | fails phase =>
    rw [hphase] at phase
    cases phase

/-! ### The parts of a step -/

/-- The session with its scanner behind a scan. -/
def scanned (s : Session) : Session :=
  { s with scanner := (s.scanner.scan s.buffer).2 }

/-- The session with other arrivals on its stream. -/
def withArrivals (arrivals : List Arrival) (s : Session) : Session :=
  { s with feed := { s.feed with arrivals } }

@[simp] theorem withArrivals_phase (arrivals : List Arrival) :
    (s.withArrivals arrivals).phase = s.phase :=
  rfl

/-- All that a decoding can make of a session. -/
inductive Decodes (s : Session) : Session → List RecordSet → Prop where
  | skips {n : Nat} (blank : Message.decode s.buffer = .separators n) :
    Decodes s (s.release n .scanning) []
  | takes {set : RecordSet} {n : Nat} (message : Message.decode s.buffer = .message set n) :
    Decodes s (s.release n (.emitting [set])) [set]
  | fails {error : DecodeError} (refused : Message.decode s.buffer = .refused error) :
    Decodes s (s.finish (.decode error)) []

/-- What is decoded is one of these. -/
theorem Decodes.of_decode {sets : List RecordSet} (h : s.decode = some (s', sets)) :
    s.Decodes s' sets := by
  rw [decode] at h
  split at h
  · cases h
  · rename_i blank
    cases h
    exact .skips blank
  · rename_i message
    cases h
    exact .takes message
  · rename_i refused
    cases h
    exact .fails refused

/-- All that a session can make of itself where nothing new arrives, and the record sets that it
decodes with that.  It decodes or it ends; and behind a scan it can wait for bytes, from there it
can begin to read, and a read that fails in passing can be tried again. -/
inductive Turn (s : Session) : Session → List RecordSet → Prop where
  | decodes {s' : Session} {sets : List RecordSet} (decoded : s.Decodes s' sets) : Turn s s' sets
  /-- The sink has no part in it. -/
  | ends {outcome : Outcome} (own : ∀ error, outcome ≠ .sink error) : Turn s (s.finish outcome) []
  | waits {needed : Nat} (phase : s.phase = .scanning) :
    Turn s { s with phase := .reading needed } []
  | polls {needed : Nat} (phase : s.phase = .reading needed) :
    Turn s { s with phase := .polling, reads := s.reads + 1 } []
  | retries (phase : s.phase = .polling) : Turn s { s with phase := .scanning } []

/-- To decode, or else to do something else that is a turn, is a turn. -/
private theorem turn_getD_decode {other : Session × List RecordSet} (h : s.Turn other.1 other.2) :
    s.Turn (s.decode.getD other).1 (s.decode.getD other).2 := by
  cases hdecode : s.decode with
  | none => exact h
  | some decoded => exact .decodes (.of_decode hdecode)

private theorem turn_await (phase : s.phase = .scanning) (needed : Nat) :
    s.Turn (s.await limit needed) [] := by
  rw [await]
  split
  · exact .ends (by simp)
  · exact .waits phase

/-- What follows a scan is a turn of the session behind it. -/
theorem turn_scan (phase : s.phase = .scanning) :
    s.scanned.Turn (s.scan limit).1 (s.scan limit).2 := by
  have hawait (needed : Nat) : s.scanned.Turn (s.scanned.await limit needed) [] :=
    turn_await (s := s.scanned) phase needed
  simp only [scan]
  split
  · exact hawait _
  · exact turn_getD_decode (hawait _)

/-- To begin a read is a turn. -/
theorem turn_beginRead {needed : Nat} (phase : s.phase = .reading needed) :
    s.Turn (s.beginRead limit down) [] := by
  rw [beginRead]
  split
  · exact .ends (by simp)
  · split
    · exact .ends (by simp)
    · exact .polls phase

/-- To meet the end of the stream is a turn. -/
theorem turn_atEnd : s.Turn s.atEnd.1 s.atEnd.2 := by
  rw [atEnd]
  split
  · exact .ends (by simp)
  · exact turn_getD_decode (.ends (by simp))

/-- To meet an error of the stream is a turn. -/
theorem turn_atFault (phase : s.phase = .polling) (error : IoError) :
    s.Turn (s.atFault error) [] := by
  rw [atFault]
  split
  · exact .retries phase
  · exact .ends (by simp)

/-! ### Sessions keep their client -/

/-- The two sessions are of one client. -/
def SameClient (s s' : Session) : Prop :=
  s'.id = s.id ∧ s'.token = s.token

/-- A decoding leaves the client. -/
private theorem Decodes.sameClient {sets : List RecordSet} (h : s.Decodes s' sets) :
    s.SameClient s' := by
  cases h with
  | skips | takes | fails => exact ⟨rfl, rfl⟩

/-- A turn leaves the client. -/
private theorem Turn.sameClient {sets : List RecordSet} (h : s.Turn s' sets) :
    s.SameClient s' := by
  cases h with
  | decodes decoded => exact decoded.sameClient
  | ends | waits | polls | retries => exact ⟨rfl, rfl⟩

/-- A step leaves the client. -/
theorem Step.sameClient (h : Step limit down s sink stats s' sink' stats') : s.SameClient s' := by
  cases h with
  | scans phase => exact (turn_scan phase).sameClient
  | begins phase => exact (turn_beginRead phase).sameClient
  | ends => exact turn_atEnd.sameClient
  | @endsEarly arrivals =>
    exact (turn_atEnd (s := s.withArrivals arrivals)).sameClient
  | @fails error arrivals phase =>
    exact (turn_atFault (s := s.withArrivals arrivals) phase error).sameClient
  | opens | delivers | refuses | breaksOff | receives => exact ⟨rfl, rfl⟩

/-! ### Sessions of a hub -/

/-- All that an action of a hub can make of one of its sessions. -/
inductive Next (limit : Nat) (s : Session) : Session → Prop where
  | rests : Next limit s s
  | steps {σ : Type} [Sink σ] {down : Bool} {s' : Session} {sink sink' : σ} {stats stats' : Stats}
    (step : Step limit down s sink stats s' sink' stats') : Next limit s s'
  | isFed (f : Feed → Feed) : Next limit s { s with feed := f s.feed }
  | discards (phase : s.phase = .created) : Next limit s { s with phase := .discarded }
  | breaksOff (phase : s.phase = .polling) : Next limit s (s.finish .shutdown)

/-- Whatever happens to a session leaves its client. -/
theorem Next.sameClient (h : Next limit s s') : s.SameClient s' := by
  cases h with
  | steps step => exact step.sameClient
  | rests => exact ⟨rfl, rfl⟩
  | isFed => exact ⟨rfl, rfl⟩
  | discards => exact ⟨rfl, rfl⟩
  | breaksOff => exact ⟨rfl, rfl⟩

/-- What is over stays as it is, but for what still arrives. -/
theorem Next.isOver (h : Next limit s s') (hover : s.phase.isOver = true) :
    s'.phase.isOver = true := by
  cases h with
  | rests => exact hover
  | isFed => exact hover
  | steps step => simp [step.isOver_eq_false] at hover
  | discards | breaksOff => simp

end Session

namespace Hub

open Session

/-- All that an action can make of a hub. -/
inductive Change (h : Hub σ) : Hub σ → Prop where
  | accepts (peer : String) (feed : Feed) : Change h (h.accept peer feed)
  | advances {i : Nat} {s s' : Session} {sink : σ} {stats : Stats} (place : h.sessions[i]? = some s)
    (step : Step h.limit (h.registry.isCancelled s.token) s h.sink h.stats s' sink stats) :
    Change h ({ h with sink, stats }.settle i s')
  | discards {i : Nat} {s : Session} (place : h.sessions[i]? = some s)
    (phase : s.phase = .created) :
    Change h (h.settle i { s with phase := .discarded })
  | aborts {i : Nat} {s : Session} (place : h.sessions[i]? = some s) (phase : s.phase = .polling)
    (down : h.registry.isCancelled s.token = true) :
    Change h (h.settle i (s.finish .shutdown))
  | feeds (i : Nat) (f : Feed → Feed) : Change h (h.feed i f)
  | cancels (token : Token) : Change h { h with registry := h.registry.cancel token }
  | sweeps : Change h h.shutdownAll
  | rests : Change h h

variable {h h' : Hub σ} {i : Nat}

private theorem Change.of_advance (hadvance : h.advance i = some h') : Change h h' := by
  obtain ⟨s, hplace, hadvance⟩ := Option.bind_eq_some_iff.1 hadvance
  obtain ⟨⟨s', sink, stats⟩, hstep, rfl⟩ := Option.map_eq_some_iff.1 hadvance
  exact .advances hplace (.of_step hstep)

private theorem Change.of_abort (habort : h.abort i = some h') : Change h h' := by
  obtain ⟨s, hplace, habort⟩ := Option.bind_eq_some_iff.1 habort
  split at habort
  · rename_i hphase
    split at habort
    · rename_i hdown
      cases habort
      exact .aborts hplace hphase hdown
    · cases habort
  · cases habort

private theorem Change.of_discard (hdiscard : h.discard i = some h') : Change h h' := by
  obtain ⟨s, hplace, hdiscard⟩ := Option.bind_eq_some_iff.1 hdiscard
  split at hdiscard
  · rename_i hphase
    cases hdiscard
    exact .discards hplace hphase
  · cases hdiscard

/-- **Every action is one of the changes.** -/
theorem Change.of_act {a : Action} (hact : h.act a = some h') : Change h h' := by
  cases a with
  | accept peer feed =>
    cases hact
    exact .accepts peer feed
  | advance i => exact .of_advance hact
  | discard i => exact .of_discard hact
  | abort i => exact .of_abort hact
  | arrive i arrival =>
    cases hact
    exact .feeds i _
  | close i =>
    cases hact
    exact .feeds i _
  | shutdown i =>
    cases hact
    rw [shutdown]
    split
    · exact .cancels _
    · exact .rests
  | shutdownAll =>
    cases hact
    exact .sweeps

/-- The limit stays. -/
theorem Change.limit_eq (hchange : Change h h') : h'.limit = h.limit := by
  cases hchange <;> rfl

/-- The limit stays in every run. -/
theorem limit_eq_of_reaches (hreach : Reaches act h h') : h'.limit = h.limit := by
  refine hreach.invariant (P := fun h' => h'.limit = h.limit) (fun hlimit hact => ?_) rfl
  exact (Change.of_act hact).limit_eq.trans hlimit

/-- Sessions are never taken off the list. -/
theorem Change.length_le (hchange : Change h h') : h.sessions.length ≤ h'.sessions.length := by
  cases hchange with
  | accepts =>
    rw [accept_sessions, List.length_append]
    exact Nat.le_add_right _ _
  | advances | discards | aborts | feeds => simp
  | cancels | sweeps | rests => exact le_refl _

omit [Sink σ] in
/-- Settling a session leads each session on. -/
private theorem next_of_settle {j : Nat} {s s' t : Session} {limit : Nat}
    (place : h.sessions[i]? = some s)
    (hnext : Next limit s s') (hat : (h.settle i s').sessions[j]? = some t) :
    ∃ u, h.sessions[j]? = some u ∧ Next limit u t := by
  rw [settle_sessions, List.getElem?_set] at hat
  split at hat
  · rename_i hij
    subst hij
    split at hat
    · cases hat
      exact ⟨s, place, hnext⟩
    · cases hat
  · exact ⟨t, hat, .rests⟩

/-- **Where a session comes from**: it was made by the action, or it was there before. -/
theorem Change.of_session {t : Session} (hchange : Change h h') (hat : h'.sessions[i]? = some t) :
    (∃ s, h.sessions[i]? = some s ∧ Next h.limit s t) ∨
      ∃ peer feed, i = h.sessions.length ∧ h' = h.accept peer feed ∧
        t = .new h.registry.next ⟨h.registry.issued⟩ feed := by
  cases hchange with
  | accepts peer feed =>
    rw [accept_sessions, List.getElem?_append] at hat
    split at hat
    · exact .inl ⟨t, hat, .rests⟩
    · rename_i hge
      obtain ⟨hlt, hnew⟩ := List.getElem?_eq_some_iff.1 hat
      obtain ⟨rfl⟩ : i = h.sessions.length := by
        rw [List.length_singleton] at hlt
        omega
      exact .inr ⟨peer, feed, rfl, rfl, (List.mem_singleton.1 (hnew ▸ List.getElem_mem hlt))⟩
  | advances place step => exact .inl (next_of_settle place (.steps step) hat)
  | discards place phase => exact .inl (next_of_settle place (.discards phase) hat)
  | aborts place phase => exact .inl (next_of_settle place (.breaksOff phase) hat)
  | feeds j f =>
    rw [feed_sessions, List.getElem?_modify] at hat
    obtain ⟨s, hs, rfl⟩ := Option.map_eq_some_iff.1 hat
    refine .inl ⟨s, hs, ?_⟩
    split
    · exact .isFed f
    · exact .rests
  | cancels | sweeps | rests => exact .inl ⟨t, hat, .rests⟩

/-- **What becomes of a session.** -/
theorem Change.session {s : Session} (hchange : Change h h') (hat : h.sessions[i]? = some s) :
    ∃ t, h'.sessions[i]? = some t ∧ Next h.limit s t := by
  have hlt := (List.getElem?_eq_some_iff.1 hat).1
  have hlt' := Nat.lt_of_lt_of_le hlt hchange.length_le
  have hat' := List.getElem?_eq_getElem hlt'
  refine ⟨_, hat', ?_⟩
  rcases hchange.of_session hat' with ⟨u, hu, hnext⟩ | ⟨peer, feed, hi, -⟩
  · obtain rfl : s = u := Option.some.inj (hat.symm.trans hu)
    exact hnext
  · omega

end Hub

end ForwardIntake
