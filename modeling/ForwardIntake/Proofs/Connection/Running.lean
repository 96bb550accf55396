import ForwardIntake.Proofs.Connection.Serving
import ForwardIntake.Proofs.Connection.Steps
import ForwardIntake.Proofs.Sink.Offers

/-!
# Sessions serve streams

A session decodes when its scanner says so, resumes the scanner behind each read, and decodes once
more at the end of the stream.  On a stream whose reads come to bytes or to passing faults, with a
sink that takes everything, all of this comes to `Serving.serve`: the session hands on its record
sets one by one, and it ends as `serve` says (`Hub.run_serve`).

The proof goes from one step to a whole run.  Of a session in any phase, `answer` says what it still
has to hand on and how it will end; no step changes that (`step_answer`), while the session keeps
its scanner in step with its buffer (`Undisturbed`).
-/

namespace ForwardIntake

/-! ### Streams -/

/-- The bytes that arrive. -/
def Arrival.bytes : Arrival → Bytes
  | .chunk bytes => bytes
  | .fault _ => []

/-- Whether bytes arrive, or a fault behind which the stream can be read on. -/
def Arrival.isBenign : Arrival → Bool
  | .chunk bytes => !bytes.isEmpty
  | .fault error => error.isTemporary

/-- The bytes of each read, none for a fault. -/
def Feed.chunks (f : Feed) : List Bytes :=
  f.arrivals.map Arrival.bytes

namespace Session

open ForwardIntake.Frame Scanner Serving

variable {limit : Nat}

/-! ### Scanning -/

/-- A scan in step goes by the frame of the buffer. -/
theorem scan_eq_frameOf {s : Session} (hstep : s.scanner.InStep s.buffer)
    (small : s.buffer.length < 2 ^ 63) :
    s.scan limit =
      match frameOf s.buffer with
      | .incomplete needed => (s.scanned.await limit needed, [])
      | _ => s.scanned.decode.getD (s.scanned.await limit (s.buffer.length + 1), []) := by
  rw [frameOf, ← hstep.scan_eq small]
  rfl

/-- Scanning does not change what is decoded. -/
private theorem decode_scanned (s : Session) :
    s.scanned.decode =
      match Message.decode s.buffer with
      | .incomplete => none
      | .separators n => some (s.scanned.release n .scanning, [])
      | .message set n => some (s.scanned.release n (.emitting [set]), [set])
      | .refused error => some (s.scanned.finish (.decode error), []) :=
  rfl

/-- **What a scan comes to**, whatever the scanner has seen before. -/
theorem scan_eq {s : Session} (hstep : s.scanner.InStep s.buffer)
    (small : s.buffer.length < 2 ^ 63) :
    s.scan limit =
      match (Message.decode s.buffer).sets? with
      | some sets => (s.scanned.release (Message.decode s.buffer).consumed
          (if sets = [] then .scanning else .emitting sets), sets)
      | none =>
        match stop? limit s.buffer with
        | some outcome => (s.scanned.finish outcome, [])
        | none => ({ s.scanned with phase := .reading (demand s.buffer) }, []) := by
  rw [scan_eq_frameOf hstep small, stop?]
  split
  · rename_i needed hframe
    rw [sets?_eq_none_of_frameOf small hframe, refusal?_of_incomplete hframe,
      demand_of_incomplete hframe, await]
    split
    · rfl
    · rfl
  · rename_i hframe
    have found : (frameOf s.buffer).isIncomplete = false := by
      refine (incomplete_or_found s.buffer).resolve_left ?_
      rintro ⟨needed, h⟩
      exact hframe needed h
    rw [refusal?_of_found found, demand_of_found found, decode_scanned]
    -- the decoder has the last word, and it may still wait
    cases Message.decode s.buffer with
    | incomplete =>
      simp only [Decoding.sets?, Option.getD_none, await]
      split
      · rfl
      · rfl
    | refused error => rfl
    | message set n => rfl
    | separators n => rfl

/-! ### What is still to be answered -/

/-- What the session still has to hand on, and how it will end. -/
def answer (limit : Nat) (s : Session) : List RecordSet × Outcome :=
  match s.phase with
  | .emitting batch =>
    (batch ++ (serve limit s.buffer s.feed.chunks).1, (serve limit s.buffer s.feed.chunks).2)
  | .reading _ => proceed limit s.buffer s.feed.chunks
  | .polling => proceed limit s.buffer s.feed.chunks
  | .finished outcome => ([], outcome)
  | _ => serve limit s.buffer s.feed.chunks

/-- What is known of the buffer in each phase. -/
def Settled (limit : Nat) (s : Session) : Prop :=
  match s.phase with
  | .emitting batch => ∃ set, batch = [set]
  | .reading _ => (Message.decode s.buffer).sets? = none ∧ stop? limit s.buffer = none
  | .polling => (Message.decode s.buffer).sets? = none ∧ stop? limit s.buffer = none
  | .discarded => False
  | _ => True

/-- The session is on a stream whose reads come to bytes or to passing faults, up to the end of the
stream, and its scanner is in step with its buffer. -/
structure Undisturbed (limit : Nat) (s : Session) : Prop where
  inStep : s.scanner.InStep s.buffer
  inMemory : InMemory limit s.buffer s.feed.chunks
  benign : ∀ arrival ∈ s.feed.arrivals, arrival.isBenign = true
  ended : s.feed.ended = true
  settled : s.Settled limit

variable {σ : Type} [Sink σ] {s s' : Session} {sink sink' : σ}

/-- A session with a sink comes to the same as another session with its sink. -/
structure Keeps (limit : Nat) (s : Session) (sink : σ) (s' : Session) (sink' : σ) : Prop where
  undisturbed : s'.Undisturbed limit
  token : s'.token = s.token
  accepts : Sink.Accepts sink'
  sink : Sink.emitAll sink' ((s'.answer limit).1.map ([·])) =
    Sink.emitAll sink ((s.answer limit).1.map ([·]))
  outcome : (s'.answer limit).2 = (s.answer limit).2

/-- Most steps leave the sink alone. -/
private theorem Keeps.of_answer_eq (hs' : s'.Undisturbed limit) (htoken : s'.token = s.token)
    (haccepts : Sink.Accepts sink) (hanswer : s'.answer limit = s.answer limit) :
    Keeps limit s sink s' sink :=
  ⟨hs', htoken, haccepts, by rw [hanswer], by rw [hanswer]⟩

/-- One message is emitted at a time. -/
private theorem Undisturbed.emitting {batch : Batch} (hs : s.Undisturbed limit)
    (hphase : s.phase = .emitting batch) : ∃ set, batch = [set] := by
  have hsettled := hs.settled
  rwa [Settled, hphase] at hsettled

/-- A read begins when there is nothing to decode. -/
private theorem Undisturbed.reading {needed : Nat} (hs : s.Undisturbed limit)
    (hphase : s.phase = .reading needed) :
    (Message.decode s.buffer).sets? = none ∧ stop? limit s.buffer = none := by
  have hsettled := hs.settled
  rwa [Settled, hphase] at hsettled

/-- A read goes on when there is nothing to decode. -/
private theorem Undisturbed.polling (hs : s.Undisturbed limit) (hphase : s.phase = .polling) :
    (Message.decode s.buffer).sets? = none ∧ stop? limit s.buffer = none := by
  have hsettled := hs.settled
  rwa [Settled, hphase] at hsettled

/-- An end does not disturb the session. -/
private theorem Undisturbed.finish (hs : s.Undisturbed limit) (outcome : Outcome) :
    (s.finish outcome).Undisturbed limit :=
  ⟨hs.inStep, hs.inMemory, hs.benign, hs.ended, trivial⟩

private theorem Undisturbed.scanned (hs : s.Undisturbed limit) : s.scanned.Undisturbed limit :=
  ⟨hs.inStep.scan hs.inMemory.small, hs.inMemory, hs.benign, hs.ended, hs.settled⟩

/-! ### One step -/

/-- A scan keeps the answer. -/
private theorem keeps_scan (hs : s.Undisturbed limit) (hphase : s.phase = .scanning)
    (haccepts : Sink.Accepts sink) : Keeps limit s sink (s.scan limit).1 sink := by
  have hanswer : s.answer limit = serve limit s.buffer s.feed.chunks := by rw [answer, hphase]
  have hscanned := hs.scanned
  rw [scan_eq hs.inStep hs.inMemory.small]
  cases hsets : (Message.decode s.buffer).sets? with
  | some sets =>
    have hmemory := hs.inMemory.of_some hsets
    rw [serve_of_some hsets] at hanswer
    obtain ⟨n, -, rfl⟩ | ⟨set, n, -, rfl⟩ := Decoding.sets?_eq_some_iff.1 hsets
    · refine .of_answer_eq ?_ rfl haccepts (hanswer ▸ rfl)
      exact ⟨inStep_fresh _, hmemory, hs.benign, hs.ended, trivial⟩
    · refine .of_answer_eq ?_ rfl haccepts (hanswer ▸ rfl)
      exact ⟨inStep_fresh _, hmemory, hs.benign, hs.ended, set, rfl⟩
  | none =>
    rw [serve_of_none hsets] at hanswer
    cases hstop : stop? limit s.buffer with
    | some outcome =>
      rw [hstop] at hanswer
      exact .of_answer_eq (hscanned.finish outcome) rfl haccepts hanswer.symm
    | none =>
      rw [hstop] at hanswer
      refine .of_answer_eq ?_ rfl haccepts hanswer.symm
      exact ⟨hscanned.inStep, hscanned.inMemory, hscanned.benign, hscanned.ended, hsets, hstop⟩

private theorem keeps_emit {batch : Batch} (hs : s.Undisturbed limit)
    (hphase : s.phase = .emitting batch) (haccepts : Sink.Accepts sink) :
    Keeps limit s sink { s with phase := .scanning } (Sink.emit sink batch).2 := by
  obtain ⟨set, rfl⟩ := hs.emitting hphase
  have hanswer : s.answer limit =
      (set :: (serve limit s.buffer s.feed.chunks).1,
        (serve limit s.buffer s.feed.chunks).2) := by
    rw [answer, hphase]
    rfl
  refine ⟨⟨hs.inStep, hs.inMemory, hs.benign, hs.ended, trivial⟩, rfl, haccepts.emit _, ?_, ?_⟩
  · rw [hanswer]
    rfl
  · rw [hanswer]
    rfl

private theorem keeps_beginRead {needed : Nat} (hs : s.Undisturbed limit)
    (hphase : s.phase = .reading needed) (haccepts : Sink.Accepts sink) :
    Keeps limit s sink (s.beginRead limit false) sink := by
  have hsettled := hs.reading hphase
  have hroom := lt_limit_of_stop?_eq_none hs.inMemory.small hsettled.1 hsettled.2
  have hread : s.beginRead limit false = { s with phase := .polling, reads := s.reads + 1 } := by
    rw [beginRead, if_neg (Nat.not_le.2 hroom)]
    rfl
  rw [hread]
  refine .of_answer_eq ⟨hs.inStep, hs.inMemory, hs.benign, hs.ended, hsettled⟩ rfl haccepts ?_
  rw [answer, answer, hphase]

/-- At the end of the stream what is left over decides how the session ends. -/
theorem atEnd_eq (hsets : (Message.decode s.buffer).sets? = none) :
    s.atEnd = (s.finish (ending s.buffer), []) := by
  rw [atEnd, ending, decode]
  by_cases hb : s.buffer = []
  · rw [if_pos hb, if_pos (by rw [hb]; rfl)]
  · rw [if_neg hb, if_neg (by rwa [List.isEmpty_iff])]
    obtain hdecode | ⟨error, hdecode⟩ := Decoding.sets?_eq_none_iff.1 hsets
    · rw [hdecode]
      rfl
    · rw [hdecode]
      rfl

private theorem keeps_atEnd (hs : s.Undisturbed limit) (hphase : s.phase = .polling)
    (harrivals : s.feed.arrivals = []) (haccepts : Sink.Accepts sink) :
    Keeps limit s sink s.atEnd.1 sink := by
  have hchunks : s.feed.chunks = [] := by rw [Feed.chunks, harrivals, List.map_nil]
  rw [atEnd_eq (hs.polling hphase).1]
  refine .of_answer_eq (hs.finish _) rfl haccepts ?_
  rw [answer, answer, hphase, hchunks]
  rfl

/-- A read puts its bytes behind the buffer, and there may be none. -/
private theorem keeps_read {arrival : Arrival} {arrivals : List Arrival} (hs : s.Undisturbed limit)
    (hphase : s.phase = .polling) (harrivals : s.feed.arrivals = arrival :: arrivals)
    (haccepts : Sink.Accepts sink) :
    Keeps limit s sink { s with
      buffer := s.buffer ++ arrival.bytes
      feed := { s.feed with arrivals }
      phase := .scanning } sink := by
  have hchunks : s.feed.chunks = arrival.bytes :: arrivals.map Arrival.bytes := by
    rw [Feed.chunks, harrivals, List.map_cons]
  obtain ⟨hnone, hstop⟩ := hs.polling hphase
  have hbenign := hs.benign
  have hmemory := hs.inMemory
  rw [harrivals] at hbenign
  rw [hchunks] at hmemory
  have hlater : ∀ arrival' ∈ arrivals, arrival'.isBenign = true :=
    fun arrival' h => hbenign arrival' (List.mem_cons_of_mem _ h)
  have hroom := hmemory.read hnone hstop
  refine .of_answer_eq ⟨hs.inStep.append _, hroom, hlater, hs.ended, trivial⟩ rfl haccepts ?_
  rw [answer, answer, hphase, hchunks]
  rfl

/-- **No step changes what a session comes to.** -/
private theorem step_answer {stats stats' : Stats} (hs : s.Undisturbed limit)
    (haccepts : Sink.Accepts sink) (h : Step limit false s sink stats s' sink' stats') :
    Keeps limit s sink s' sink' := by
  cases h with
  | opens phase =>
    refine .of_answer_eq ⟨hs.inStep, hs.inMemory, hs.benign, hs.ended, trivial⟩ rfl haccepts ?_
    rw [answer, answer, phase]
  | scans phase => exact keeps_scan hs phase haccepts
  | delivers phase emitted =>
    have hemit := keeps_emit hs phase haccepts
    rwa [emitted] at hemit
  | @refuses batch error after phase emitted =>
    rw [haccepts.emit_eq batch] at emitted
    cases emitted
  | begins phase => exact keeps_beginRead hs phase haccepts
  | ends phase arrived => exact keeps_atEnd hs phase arrived haccepts
  | endsEarly phase arrived =>
    -- a read without bytes would be the end of the stream
    have hbenign := hs.benign _ (arrived ▸ List.mem_cons_self)
    cases hbenign
  | breaksOff phase arrived isDown => cases isDown
  | receives phase arrived => exact keeps_read hs phase arrived haccepts
  | @fails error arrivals phase arrived =>
    have hbenign : error.isTemporary = true :=
      hs.benign (.fault error) (arrived ▸ List.mem_cons_self)
    rw [atFault, if_pos hbenign]
    simpa only [Arrival.bytes, List.append_nil] using keeps_read hs phase arrived haccepts

/-- A session waits neither for a sink that takes everything nor for a stream that has ended. -/
theorem isOver_of_step_eq_none {down : Bool} {stats : Stats} (hsink : Sink.Accepts sink)
    (h : s.step limit down sink stats = none) (hended : s.feed.ended = true) :
    s.phase.isOver = true := by
  rw [step] at h
  cases hphase : s.phase with
  | finished | discarded => rfl
  | created | scanning | reading =>
    rw [hphase] at h
    cases h
  | emitting batch =>
    rw [hphase] at h
    simp only at h
    rw [hsink.emit_eq batch] at h
    cases h
  | polling => grind

/-- A session that cannot go on has finished. -/
private theorem finished_of_step_eq_none {stats : Stats} (hs : s.Undisturbed limit)
    (haccepts : Sink.Accepts sink) (h : s.step limit false sink stats = none) :
    ∃ outcome, s.phase = .finished outcome := by
  have hover := isOver_of_step_eq_none haccepts h hs.ended
  cases hphase : s.phase with
  | finished outcome => exact ⟨outcome, rfl⟩
  | discarded =>
    have hsettled := hs.settled
    rw [Settled, hphase] at hsettled
    cases hsettled
  | created | scanning | emitting | reading | polling => simp [hphase] at hover

end Session

/-! ### Whole runs -/

namespace Hub

open ForwardIntake.Frame Scanner Serving Session

variable {σ : Type} [Sink σ] {i : Nat} {h h' : Hub σ} {s : Session}

omit [Sink σ] in
/-- Settling a session cancels nobody. -/
theorem cancelled_settle (i : Nat) (s : Session) (h : Hub σ) :
    (h.settle i s).registry.cancelled = h.registry.cancelled := by
  rw [settle]
  split
  · rfl
  · rfl

/-- A step of a session changes neither the limit nor the tokens that are cancelled. -/
private theorem exists_step_of_advance (hadvance : h.advance i = some h')
    (hat : h.sessions[i]? = some s) :
    ∃ s' stats, s.step h.limit (h.registry.isCancelled s.token) h.sink h.stats =
        some (s', h'.sink, stats) ∧
      h'.sessions[i]? = some s' ∧ h'.limit = h.limit ∧
      h'.registry.cancelled = h.registry.cancelled := by
  rw [advance, hat, Option.bind_some, Option.map_eq_some_iff] at hadvance
  obtain ⟨⟨s', sink, stats⟩, hstep, rfl⟩ := hadvance
  have hinside : i < h.sessions.length := (List.getElem?_eq_some_iff.1 hat).1
  exact ⟨s', stats, hstep, List.getElem?_set_self hinside, rfl, cancelled_settle ..⟩

/-- **What a run of a session comes to**: its sink takes the record sets of `Session.answer` one by
one, and it ends as `Session.answer` says. -/
private theorem run_answer (hat : h.sessions[i]? = some s) (hs : s.Undisturbed h.limit)
    (hlive : h.registry.isCancelled s.token = false) (haccepts : Sink.Accepts h.sink) :
    (h.run i).sink = Sink.emitAll h.sink ((s.answer h.limit).1.map ([·])) ∧
      (h.run i).outcome? i = some (s.answer h.limit).2 := by
  -- the hub changes with each step, and so does the session at its place
  fun_induction Hub.run i h generalizing s with
  | case1 h h' hadvance hless ih =>
    obtain ⟨s', stats, hstep, hat', hlimit, hcancelled⟩ := exists_step_of_advance hadvance hat
    rw [hlive] at hstep
    have hkeeps := step_answer hs haccepts (.of_step hstep)
    have hlive' : h'.registry.isCancelled s'.token = false := by
      rw [Registry.isCancelled, hcancelled, hkeeps.token]
      exact hlive
    obtain ⟨hsink, houtcome⟩ := ih hat' (hlimit ▸ hkeeps.undisturbed) hlive' hkeeps.accepts
    rw [hlimit] at hsink houtcome
    exact ⟨hsink.trans hkeeps.sink, houtcome.trans (congrArg some hkeeps.outcome)⟩
  | case2 h hadvance =>
    rw [advance, hat, Option.bind_some, Option.map_eq_none_iff, hlive] at hadvance
    obtain ⟨outcome, hphase⟩ := finished_of_step_eq_none hs haccepts hadvance
    rw [outcome?, hat, Option.bind_some, answer, hphase]
    exact ⟨rfl, rfl⟩

/-! ### New sessions -/

/-- The session is new, its client was not shut down, and its reads come to `chunks`: bytes, or
nothing where a read fails and the stream can be read on.  Then the stream ends.  The sink takes
everything. -/
structure Receives (h : Hub σ) (i : Nat) (chunks : List Bytes) : Prop where
  session : ∃ id token arrivals, h.sessions[i]? = some (.new id token (.ofArrivals arrivals)) ∧
    h.registry.isCancelled token = false ∧ (∀ arrival ∈ arrivals, arrival.isBenign = true) ∧
    arrivals.map Arrival.bytes = chunks
  accepts : Sink.Accepts h.sink

/-- **Sessions serve streams.** -/
theorem run_serve {chunks : List Bytes} (hreceives : h.Receives i chunks)
    (hmemory : InMemory h.limit [] chunks) :
    (h.run i).sink = Sink.emitAll h.sink ((serve h.limit [] chunks).1.map ([·])) ∧
      (h.run i).outcome? i = some (serve h.limit [] chunks).2 := by
  obtain ⟨id, token, arrivals, hat, hlive, hbenign, rfl⟩ := hreceives.session
  have hnew : (Session.new id token (.ofArrivals arrivals)).Undisturbed h.limit :=
    ⟨inStep_fresh _, hmemory, hbenign, rfl, trivial⟩
  exact run_answer hat hnew hlive hreceives.accepts

end Hub

end ForwardIntake
