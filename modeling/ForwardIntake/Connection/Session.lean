import ForwardIntake.Connection.Outcome
import ForwardIntake.Connection.Registry
import ForwardIntake.Connection.Stats
import ForwardIntake.Frame.Scanner
import ForwardIntake.Message.Decode

/-!
# Sessions

A session serves one client: it reads bytes into a buffer until the scanner sees the end of a
message, decodes the message, hands the batch to the sink, and goes on with the rest of the buffer.
It is a machine of small steps (`Session.step`), each of which touches the outside at most once; a
step is missing where the session waits, for room in the sink or for bytes, and once it has ended.

Before each read the session looks whether the message can still fit into the limit and whether the
client was shut down.  When the stream ends inside a message the buffer is decoded once more, since
it may already be malformed.

No run of steps goes on for ever: each step lowers `Session.potential`, which counts what is
buffered and what is still to be read.
-/

namespace ForwardIntake

/-! ### Streams -/

/-- What a read from a stream comes to. -/
inductive Arrival where
  /-- Bytes; there are none at the end of the stream. -/
  | chunk (bytes : Bytes)
  | fault (error : IoError)
  deriving Repr

/-- How many bytes arrive. -/
def Arrival.size : Arrival → Nat
  | .chunk bytes => bytes.length
  | .fault _ => 0

@[simp, grind =] theorem Arrival.size_chunk (bytes : Bytes) : (chunk bytes).size = bytes.length :=
  rfl

@[simp, grind =] theorem Arrival.size_fault (error : IoError) : (fault error).size = 0 :=
  rfl

/-- The number of arrivals and of the bytes in them. -/
@[simp] def Arrival.weights : List Arrival → Nat
  | [] => 0
  | arrival :: rest => arrival.size + 1 + weights rest

/-- What is still to be read from a stream. -/
structure Feed where
  /-- What the next reads come to, in their order. -/
  arrivals : List Arrival
  /-- Whether the stream ends behind the arrivals.  Otherwise a read that finds nothing waits. -/
  ended : Bool
  deriving Repr

namespace Feed

/-- A stream on which nothing has arrived yet. -/
def silent : Feed :=
  ⟨[], false⟩

/-- A stream that ends behind the given arrivals. -/
def ofArrivals (arrivals : List Arrival) : Feed :=
  ⟨arrivals, true⟩

/-- The stream with one more arrival. -/
def push (f : Feed) (arrival : Arrival) : Feed :=
  { f with arrivals := f.arrivals ++ [arrival] }

/-- The stream, ended behind what has arrived. -/
def close (f : Feed) : Feed :=
  { f with ended := true }

/-- The number of arrivals and of the bytes in them. -/
def weight (f : Feed) : Nat :=
  Arrival.weights f.arrivals

end Feed

/-! ### Phases -/

/-- What a session does next. -/
inductive Phase where
  /-- Nothing was done yet. -/
  | created
  /-- It looks for the end of the message at the front of the buffer. -/
  | scanning
  /-- It offers a batch to the sink. -/
  | emitting (batch : Batch)
  /-- It is about to read, since the buffer must grow to `needed` bytes. -/
  | reading (needed : Nat)
  /-- A read is in progress. -/
  | polling
  | finished (outcome : Outcome)
  /-- It was given up before it started. -/
  | discarded
  deriving Repr

namespace Phase

/-- Whether the session is over. -/
def isOver : Phase → Bool
  | .finished _ => true
  | .discarded => true
  | _ => false

@[simp, grind =] theorem isOver_created : created.isOver = false :=
  rfl

@[simp, grind =] theorem isOver_scanning : scanning.isOver = false :=
  rfl

@[simp, grind =] theorem isOver_emitting (batch : Batch) : (emitting batch).isOver = false :=
  rfl

@[simp, grind =] theorem isOver_reading (needed : Nat) : (reading needed).isOver = false :=
  rfl

@[simp, grind =] theorem isOver_polling : polling.isOver = false :=
  rfl

@[simp, grind =] theorem isOver_finished (outcome : Outcome) : (finished outcome).isOver = true :=
  rfl

@[simp, grind =] theorem isOver_discarded : discarded.isOver = true :=
  rfl

/-- How many steps can follow before something is read or decoded. -/
@[simp] def rank : Phase → Nat
  | .created => 4
  | .emitting _ => 4
  | .scanning => 3
  | .reading _ => 2
  | .polling => 1
  | .finished _ => 0
  | .discarded => 0

end Phase

/-- The state of a session. -/
structure Session where
  id : ConnectionId
  /-- Cancelled when the client is shut down. -/
  token : Token
  /-- The bytes that were read and not decoded. -/
  buffer : Bytes
  scanner : Scanner
  feed : Feed
  /-- The number of reads begun. -/
  reads : Nat
  phase : Phase
  deriving Repr

namespace Session

/-- A new session on a stream. -/
def new (id : ConnectionId) (token : Token) (feed : Feed) : Session :=
  ⟨id, token, [], .fresh, feed, 0, .created⟩

/-! ### Steps -/

/-- The session, ended. -/
def finish (outcome : Outcome) (s : Session) : Session :=
  { s with phase := .finished outcome }

/-- The session without the first `n` bytes of its buffer, its scanner reset. -/
def release (n : Nat) (phase : Phase) (s : Session) : Session :=
  { s with buffer := s.buffer.drop n, scanner := .fresh, phase }

section Fields

variable (outcome : Outcome) (n : Nat) (phase : Phase) (s : Session)

@[simp, grind =] theorem finish_id : (s.finish outcome).id = s.id :=
  rfl

@[simp, grind =] theorem finish_token : (s.finish outcome).token = s.token :=
  rfl

@[simp, grind =] theorem finish_buffer : (s.finish outcome).buffer = s.buffer :=
  rfl

@[simp, grind =] theorem finish_feed : (s.finish outcome).feed = s.feed :=
  rfl

@[simp, grind =] theorem finish_phase : (s.finish outcome).phase = .finished outcome :=
  rfl

@[simp, grind =] theorem release_id : (s.release n phase).id = s.id :=
  rfl

@[simp, grind =] theorem release_token : (s.release n phase).token = s.token :=
  rfl

@[simp, grind =] theorem release_buffer : (s.release n phase).buffer = s.buffer.drop n :=
  rfl

@[simp, grind =] theorem release_feed : (s.release n phase).feed = s.feed :=
  rfl

@[simp, grind =] theorem release_phase : (s.release n phase).phase = phase :=
  rfl

end Fields

/-- Decodes the front of the buffer, and tells the record sets that were decoded; none if bytes are
missing. -/
def decode (s : Session) : Option (Session × List RecordSet) :=
  match Message.decode s.buffer with
  | .incomplete => none
  | .separators n => some (s.release n .scanning, [])
  | .message set n => some (s.release n (.emitting [set]), [set])
  | .refused error => some (s.finish (.decode error), [])

/-- Goes on to read, unless the message cannot fit into the limit. -/
def await (limit needed : Nat) (s : Session) : Session :=
  if limit < needed then s.finish (.tooLarge limit) else { s with phase := .reading needed }

/-- Decodes the buffer if the scanner finds a frame or sees that there is none; otherwise goes on to
read. -/
def scan (limit : Nat) (s : Session) : Session × List RecordSet :=
  let (frame, scanner) := s.scanner.scan s.buffer
  let s := { s with scanner }
  match frame with
  | .incomplete needed => (s.await limit needed, [])
  -- the decoder has the last word on whether the message is all there
  | _ => s.decode.getD (s.await limit (s.buffer.length + 1), [])

/-- Begins a read, unless the buffer is full or the client was shut down. -/
def beginRead (limit : Nat) (down : Bool) (s : Session) : Session :=
  if limit ≤ s.buffer.length then s.finish (.tooLarge limit)
  else if down then s.finish .shutdown
  else { s with phase := .polling, reads := s.reads + 1 }

/-- Meets the end of the stream. -/
def atEnd (s : Session) : Session × List RecordSet :=
  if s.buffer.isEmpty then (s.finish .disconnected, [])
  else s.decode.getD (s.finish .unexpectedEnd, [])

/-- Meets an error of the stream. -/
def atFault (error : IoError) (s : Session) : Session :=
  if error.isTemporary then { s with phase := .scanning } else s.finish (.io error)

/-- One step of a session, on the sink and the counters that all sessions share; none where the
session waits or is over.  `down` says whether the client was shut down. -/
def step {σ : Type} [Sink σ] (limit : Nat) (down : Bool) (sink : σ) (stats : Stats) (s : Session) :
    Option (Session × σ × Stats) :=
  match s.phase with
  | .created => some ({ s with phase := .scanning }, sink, stats)
  | .scanning =>
    let (s, sets) := s.scan limit
    some (s, sink, stats.countSets sets)
  | .emitting batch =>
    match Sink.emit sink batch with
    | (.delivered, sink) => some ({ s with phase := .scanning }, sink, stats)
    | (.stalled, _) => none
    | (.refused error, sink) => some (s.finish (.sink error), sink, stats)
  | .reading _ => some (s.beginRead limit down, sink, stats)
  | .polling =>
    match s.feed.arrivals with
    | [] =>
      if s.feed.ended then
        let (s, sets) := s.atEnd
        some (s, sink, stats.countSets sets)
      -- only a read that waits is broken off by a shutdown
      else if down then some (s.finish .shutdown, sink, stats)
      else none
    | .chunk [] :: arrivals =>
      let (s, sets) := { s with feed := { s.feed with arrivals } }.atEnd
      some (s, sink, stats.countSets sets)
    | .chunk (byte :: bytes) :: arrivals =>
      let chunk := byte :: bytes
      some ({ s with
        buffer := s.buffer ++ chunk
        feed := { s.feed with arrivals }
        phase := .scanning }, sink, stats.countBytes chunk.length)
    | .fault error :: arrivals =>
      some ({ s with feed := { s.feed with arrivals } }.atFault error, sink, stats)
  | .finished _ => none
  | .discarded => none

/-! ### Sessions end -/

/-- What the session has before it: the bytes that are buffered or still to be read and the arrivals
of the stream, and between two of them the steps of a phase. -/
def potential (s : Session) : Nat :=
  4 * (s.buffer.length + s.feed.weight) + s.phase.rank

/-- What is decoded is done. -/
private theorem potential_decode {s s' : Session} {sets : List RecordSet}
    (h : s.decode = some (s', sets)) :
    s'.potential ≤ 4 * (s.buffer.length + s.feed.weight) := by
  have consumed := fun {sets} => @Message.consumed_decode s.buffer sets
  rw [decode] at h
  generalize Message.decode s.buffer = d at h consumed
  cases d with
  | incomplete => cases h
  | separators n =>
    cases h
    have := consumed rfl
    simp only [Decoding.consumed_separators] at this
    simp only [potential, release_buffer, release_feed, release_phase, List.length_drop, Phase.rank]
    omega
  | message set n =>
    cases h
    have := consumed rfl
    simp only [Decoding.consumed_message] at this
    simp only [potential, release_buffer, release_feed, release_phase, List.length_drop, Phase.rank]
    omega
  | refused error =>
    cases h
    simp [potential]

private theorem potential_finish (outcome : Outcome) (s : Session) :
    (s.finish outcome).potential ≤ 4 * (s.buffer.length + s.feed.weight) := by
  simp [potential]

private theorem potential_await (limit needed : Nat) (s : Session) :
    (s.await limit needed).potential ≤ 4 * (s.buffer.length + s.feed.weight) + 2 := by
  rw [await]
  split
  · exact Nat.le_add_right_of_le (potential_finish _ s)
  · exact Nat.le_refl _

private theorem potential_scan (limit : Nat) (s : Session) :
    (s.scan limit).1.potential ≤ 4 * (s.buffer.length + s.feed.weight) + 2 := by
  simp only [scan]
  split
  · exact potential_await _ _ _
  · have bound := @potential_decode { s with scanner := (s.scanner.scan s.buffer).2 }
    generalize decode { s with scanner := (s.scanner.scan s.buffer).2 } = decoded at bound ⊢
    cases decoded with
    | none => exact potential_await _ _ _
    | some p => exact Nat.le_add_right_of_le (bound rfl)

private theorem potential_beginRead (limit : Nat) (down : Bool) (s : Session) :
    (s.beginRead limit down).potential ≤ 4 * (s.buffer.length + s.feed.weight) + 1 := by
  simp only [beginRead]
  split
  · exact Nat.le_add_right_of_le (potential_finish _ s)
  · split
    · exact Nat.le_add_right_of_le (potential_finish _ s)
    · exact Nat.le_refl _

private theorem potential_atEnd (s : Session) :
    s.atEnd.1.potential ≤ 4 * (s.buffer.length + s.feed.weight) := by
  rw [atEnd]
  split
  · exact potential_finish _ s
  · cases h : s.decode with
    | none => exact potential_finish _ s
    | some p => exact potential_decode h

/-- Each step leaves less to be done. -/
theorem potential_step {σ : Type} [Sink σ] {limit : Nat} {down : Bool} {sink sink' : σ}
    {stats stats' : Stats} {s s' : Session}
    (h : s.step limit down sink stats = some (s', sink', stats')) :
    s'.potential < s.potential := by
  have whole : s.potential = 4 * (s.buffer.length + s.feed.weight) + s.phase.rank := rfl
  rw [step] at h
  cases phase : s.phase with
  | created =>
    simp only [phase] at h whole
    cases h
    rw [whole]
    simp [potential]
  | scanning =>
    simp only [phase] at h whole
    cases h
    have := potential_scan limit s
    simp only [Phase.rank] at whole
    omega
  | emitting batch =>
    simp only [phase] at h whole
    split at h
    · cases h
      rw [whole]
      simp [potential]
    · cases h
    · cases h
      have := potential_finish (.sink ‹_›) s
      simp only [Phase.rank] at whole
      omega
  | reading needed =>
    simp only [phase] at h whole
    cases h
    have := potential_beginRead limit down s
    simp only [Phase.rank] at whole
    omega
  | polling =>
    simp only [phase] at h whole
    simp only [Phase.rank] at whole
    cases arrivals : s.feed.arrivals with
    | nil =>
      simp only [arrivals] at h
      split at h
      · cases h
        have := potential_atEnd s
        omega
      · split at h
        · cases h
          have := potential_finish .shutdown s
          omega
        · cases h
    | cons arrival rest =>
      have weight : s.feed.weight = arrival.size + 1 + (Feed.mk rest s.feed.ended).weight := by
        simp [Feed.weight, arrivals]
      cases arrival with
      | chunk bytes =>
        cases bytes with
        | nil =>
          simp only [arrivals] at h
          cases h
          have := potential_atEnd { s with feed := ⟨rest, s.feed.ended⟩, phase := .polling }
          simp only at this
          omega
        | cons byte bytes =>
          simp only [arrivals] at h
          cases h
          simp only [Arrival.size_chunk] at weight
          simp only [potential, Phase.rank, List.length_append]
          omega
      | fault error =>
        simp only [arrivals] at h
        cases h
        simp only [Arrival.size_fault] at weight
        simp only [atFault]
        split
        · simp only [potential, Phase.rank]
          omega
        · have := potential_finish (.io error)
            { s with feed := ⟨rest, s.feed.ended⟩, phase := .polling }
          simp only at this
          omega
  | finished outcome =>
    simp only [phase] at h
    cases h
  | discarded =>
    simp only [phase] at h
    cases h

end Session

end ForwardIntake
