import ForwardIntake.Connection.Hub

/-!
# Supervising an input

An input runs one acceptor, one dispatcher and a session for each client.  The acceptor takes
connections from the listener and puts them into a bounded queue; the dispatcher takes them out and
makes their sessions.  Stopping sends a signal to the dispatcher, which closes the listener, shuts
down every client, and ends.  Waiting comes to an end once acceptor, dispatcher and all sessions
have ended.

Everything is cut into the steps that cannot be divided (`Action`, `act`): starting, stopping and
waiting may be asked for any number of times at once, and each such call is a small machine of its
own.  So what may happen in an input is any sequence of actions.

`settle` lets acceptor, dispatcher and sessions do all that they can do without anything new from
outside.
-/

namespace ForwardIntake

/-! ### Parts -/

/-- A connection that no session serves yet. -/
structure Caller where
  /-- The number of the connection, in the order of connecting. -/
  serial : Nat
  peer : String
  feed : Feed
  deriving Repr

/-- Who has the listener. -/
inductive Listener where
  /-- The input, which was not started. -/
  | held
  /-- The acceptor, or a call that is about to start it. -/
  | serving
  | closed
  deriving DecidableEq, Repr

/-- What has become of the means to send the stop signal. -/
inductive Signal where
  /-- The input has it. -/
  | held
  /-- A call to stop has taken it. -/
  | taken
  | sent
  /-- It went with the input. -/
  | lost
  deriving DecidableEq, Repr

/-- Whether the dispatcher is told to end. -/
def Signal.arrived : Signal → Bool
  | .sent => true
  | .lost => true
  | _ => false

/-- What the acceptor does. -/
inductive Acceptor where
  | unborn
  /-- It looks whether it is to close the listener. -/
  | polling
  /-- It is not to close the listener yet, and waits for a connection. -/
  | accepting
  /-- It has taken a connection, and looks whether it is to close the listener. -/
  | holding (caller : Caller)
  /-- It is not to close the listener yet, and waits for room in the queue. -/
  | sending (caller : Caller)
  | ended
  deriving Repr

namespace Acceptor

/-- Whether the acceptor was started and has not ended. -/
def isRunning : Acceptor → Bool
  | .unborn => false
  | .ended => false
  | _ => true

/-- Whether the acceptor has ended. -/
def hasEnded : Acceptor → Bool
  | .ended => true
  | _ => false

/-- The connection that it has taken and not passed on. -/
def held : Acceptor → List Caller
  | .holding caller => [caller]
  | .sending caller => [caller]
  | _ => []

/-- Changes the connection that it has taken and not passed on. -/
def map (f : Caller → Caller) : Acceptor → Acceptor
  | .holding caller => .holding (f caller)
  | .sending caller => .sending (f caller)
  | a => a

section Callers

variable (caller : Caller)

@[simp] theorem isRunning_polling : polling.isRunning = true :=
  rfl

@[simp] theorem isRunning_accepting : accepting.isRunning = true :=
  rfl

@[simp] theorem isRunning_holding : (holding caller).isRunning = true :=
  rfl

@[simp] theorem isRunning_sending : (sending caller).isRunning = true :=
  rfl

@[simp] theorem isRunning_ended : ended.isRunning = false :=
  rfl

@[simp] theorem held_polling : polling.held = [] :=
  rfl

@[simp] theorem held_accepting : accepting.held = [] :=
  rfl

@[simp] theorem held_holding : (holding caller).held = [caller] :=
  rfl

@[simp] theorem held_sending : (sending caller).held = [caller] :=
  rfl

end Callers

section Map

variable {f : Caller → Caller} {acceptor : Acceptor}

@[simp] theorem held_map : (acceptor.map f).held = acceptor.held.map f := by
  cases acceptor <;> rfl

/-- Changing the connection does not start an acceptor. -/
@[simp] theorem map_eq_unborn_iff : acceptor.map f = .unborn ↔ acceptor = .unborn := by
  cases acceptor <;> simp [map]

@[simp] theorem map_eq_ended_iff : acceptor.map f = .ended ↔ acceptor = .ended := by
  cases acceptor <;> simp [map]

end Map

/-- Bounds how much there is to do with the connection that it has. -/
@[simp] def rank : Acceptor → Nat
  | .unborn => 0
  | .polling => 2
  | .accepting => 1
  | .holding _ => 6
  | .sending _ => 5
  | .ended => 0

end Acceptor

/-- What the dispatcher does. -/
inductive Dispatcher where
  | unborn
  /-- It looks for the signal, and `accepting` says whether connections can still come. -/
  | waiting (accepting : Bool)
  /-- It has not seen the signal, and looks into the queue. -/
  | turning
  /-- It is about to close the listener. -/
  | closing
  /-- It is about to shut down all clients. -/
  | sweeping
  /-- It is about to leave the queue. -/
  | leaving
  | ended
  deriving DecidableEq, Repr

namespace Dispatcher

/-- Whether the dispatcher was started and has not ended. -/
def isRunning : Dispatcher → Bool
  | .unborn => false
  | .ended => false
  | _ => true

@[simp] theorem isRunning_ended : ended.isRunning = false :=
  rfl

/-- Bounds how much there is to do with an empty queue. -/
@[simp] def rank : Dispatcher → Nat
  | .unborn => 0
  | .waiting true => 6
  | .turning => 5
  | .waiting false => 4
  | .closing => 3
  | .sweeping => 2
  | .leaving => 1
  | .ended => 0

end Dispatcher

/-- How far a call to start has come. -/
inductive StartCall where
  /-- It has taken the listener. -/
  | claimed
  | acceptorStarted
  | dispatcherStarted
  /-- It has returned; `first` says whether it was the one that started the input. -/
  | returned (first : Bool)
  deriving DecidableEq, Repr

/-- How far a call to stop has come. -/
inductive StopCall where
  /-- It was the first to ask. -/
  | won
  /-- It has taken the means to send the signal. -/
  | signalling
  /-- It has returned whether it sent the signal. -/
  | returned (sent : Bool)
  deriving DecidableEq, Repr

/-- How far a call to wait has come. -/
inductive WaitCall where
  | waiting
  | returned
  deriving DecidableEq, Repr

/-! ### Inputs -/

/-- The state of an input. -/
structure Supervisor (σ : Type) where
  /-- How many connections the queue takes. -/
  capacity : Nat
  hub : Hub σ
  /-- How many connections were made. -/
  connected : Nat
  /-- The connections that the acceptor has not taken yet, oldest first. -/
  backlog : List Caller
  /-- The connections between acceptor and dispatcher, oldest first. -/
  queue : List Caller
  /-- The connections that were taken by the acceptor, in that order. -/
  accepted : List Nat
  /-- The connections that have sessions, in the order of the sessions. -/
  served : List Nat
  /-- The connections that were taken by the acceptor and given up without a session. -/
  dropped : List Nat
  listener : Listener
  acceptor : Acceptor
  dispatcher : Dispatcher
  /-- Whether the acceptor was told to close the listener. -/
  closeRequested : Bool
  /-- Whether a call to stop was made. -/
  stopping : Bool
  signal : Signal
  /-- Whether every task that is waited for is known. -/
  trackerClosed : Bool
  /-- Whether the input was given up. -/
  abandoned : Bool
  starts : List StartCall
  stops : List StopCall
  waits : List WaitCall

namespace Supervisor

variable {σ : Type}

/-- An input that was not started. -/
def new (capacity limit : Nat) (sink : σ) : Supervisor σ where
  capacity := capacity
  hub := .new limit sink
  connected := 0
  backlog := []
  queue := []
  accepted := []
  served := []
  dropped := []
  listener := .held
  acceptor := .unborn
  dispatcher := .unborn
  closeRequested := false
  stopping := false
  signal := .held
  trackerClosed := false
  abandoned := false
  starts := []
  stops := []
  waits := []

/-- Whether no task is running. -/
def isIdle (s : Supervisor σ) : Bool :=
  !s.acceptor.isRunning && !s.dispatcher.isRunning && s.hub.sessions.all (·.phase.isOver)

/-! ### Calls -/

/-- Begins a call to start: takes the listener, if the input still has it. -/
def beginStart (s : Supervisor σ) : Option (Supervisor σ) :=
  if s.abandoned then none
  else if s.listener = .held then
    some { s with listener := .serving, starts := s.starts ++ [.claimed] }
  else some { s with starts := s.starts ++ [.returned false] }

/-- Goes on with a call to start. -/
def stepStart (k : Nat) (s : Supervisor σ) : Option (Supervisor σ) :=
  match s.starts[k]? with
  | some .claimed =>
    some { s with acceptor := .polling, starts := s.starts.set k .acceptorStarted }
  | some .acceptorStarted =>
    some { s with dispatcher := .waiting true, starts := s.starts.set k .dispatcherStarted }
  | some .dispatcherStarted =>
    some { s with trackerClosed := true, starts := s.starts.set k (.returned true) }
  | _ => none

/-- Begins a call to stop: sets the flag, if it is not set. -/
def beginStop (s : Supervisor σ) : Option (Supervisor σ) :=
  if s.abandoned then none
  else if s.stopping then some { s with stops := s.stops ++ [.returned false] }
  else some { s with stopping := true, stops := s.stops ++ [.won] }

/-- Goes on with a call to stop. -/
def stepStop (k : Nat) (s : Supervisor σ) : Option (Supervisor σ) :=
  match s.stops[k]? with
  | some .won =>
    if s.signal = .held then
      some { s with signal := .taken, stops := s.stops.set k .signalling }
    else some { s with stops := s.stops.set k (.returned false) }
  | some .signalling =>
    some { s with signal := .sent, stops := s.stops.set k (.returned true) }
  | _ => none

/-- Begins a call to wait. -/
def beginWait (s : Supervisor σ) : Option (Supervisor σ) :=
  if s.abandoned then none
  else some { s with trackerClosed := true, waits := s.waits ++ [.waiting] }

/-- Ends a call to wait, once nothing is running. -/
def stepWait (k : Nat) (s : Supervisor σ) : Option (Supervisor σ) :=
  match s.waits[k]? with
  | some .waiting =>
    if s.trackerClosed && s.isIdle then some { s with waits := s.waits.set k .returned } else none
  | _ => none

/-- Whether every call has returned. -/
def callsReturned (s : Supervisor σ) : Bool :=
  s.starts.all (· matches .returned _) && s.stops.all (· matches .returned _)
    && s.waits.all (· matches .returned)

/-- Gives up the input, once all calls have returned. -/
def abandon (s : Supervisor σ) : Option (Supervisor σ) :=
  if s.abandoned then none
  else if s.callsReturned then
    some { s with
      abandoned := true
      signal := if s.signal = .held then .lost else s.signal
      listener := if s.listener = .held then .closed else s.listener
      backlog := if s.listener = .held then [] else s.backlog }
  else none

/-! ### Connections -/

/-- Makes a connection, as long as the listener is open. -/
def connect (peer : String) (s : Supervisor σ) : Option (Supervisor σ) :=
  if s.listener = .closed then none
  else some { s with
    connected := s.connected + 1
    backlog := s.backlog ++ [⟨s.connected, peer, .silent⟩] }

/-- Changes the stream of a connection, wherever the connection is. -/
def feed (serial : Nat) (f : Feed → Feed) (s : Supervisor σ) : Supervisor σ :=
  let change (c : Caller) : Caller := if c.serial = serial then { c with feed := f c.feed } else c
  if serial ∈ s.served then { s with hub := s.hub.feed (s.served.idxOf serial) f }
  else { s with
    backlog := s.backlog.map change
    queue := s.queue.map change
    acceptor := s.acceptor.map change }

/-! ### Tasks -/

/-- Ends the acceptor, and closes the listener. -/
def endAcceptor (s : Supervisor σ) : Supervisor σ :=
  { s with
    acceptor := .ended
    listener := .closed
    backlog := []
    dropped := s.dropped ++ s.acceptor.held.map (·.serial) }

/-- A connection keeps its serial number when its stream changes. -/
private theorem serial_change (serial : Nat) (f : Feed → Feed) :
    (Caller.serial ∘ fun c : Caller =>
      if c.serial = serial then { c with feed := f c.feed } else c) = Caller.serial := by
  funext c
  rw [Function.comp_apply]
  split <;> rfl

section Fields

variable (serial : Nat) (f : Feed → Feed) (s : Supervisor σ)

@[simp] theorem endAcceptor_acceptor : s.endAcceptor.acceptor = .ended :=
  rfl

@[simp] theorem endAcceptor_backlog : s.endAcceptor.backlog = [] :=
  rfl

@[simp] theorem endAcceptor_queue : s.endAcceptor.queue = s.queue :=
  rfl

@[simp] theorem endAcceptor_dispatcher : s.endAcceptor.dispatcher = s.dispatcher :=
  rfl

/-- Input from a client does not start the acceptor. -/
@[simp] theorem feed_acceptor_eq_unborn_iff :
    (s.feed serial f).acceptor = .unborn ↔ s.acceptor = .unborn := by
  rw [feed]
  split <;> simp

@[simp] theorem feed_acceptor_eq_ended_iff :
    (s.feed serial f).acceptor = .ended ↔ s.acceptor = .ended := by
  rw [feed]
  split <;> simp

@[simp] theorem feed_backlog :
    (s.feed serial f).backlog.map (·.serial) = s.backlog.map (·.serial) := by
  rw [feed]
  split <;> simp [serial_change]

@[simp] theorem feed_queue :
    (s.feed serial f).queue.map (·.serial) = s.queue.map (·.serial) := by
  rw [feed]
  split <;> simp [serial_change]

@[simp] theorem feed_held :
    (s.feed serial f).acceptor.held.map (·.serial) = s.acceptor.held.map (·.serial) := by
  rw [feed]
  split <;> simp [serial_change]

@[simp] theorem feed_sessions_length :
    (s.feed serial f).hub.sessions.length = s.hub.sessions.length := by
  rw [feed]
  split <;> simp

@[simp] theorem feed_capacity : (s.feed serial f).capacity = s.capacity := by
  rw [feed]
  split <;> rfl

@[simp] theorem feed_connected : (s.feed serial f).connected = s.connected := by
  rw [feed]
  split <;> rfl

@[simp] theorem feed_accepted : (s.feed serial f).accepted = s.accepted := by
  rw [feed]
  split <;> rfl

@[simp] theorem feed_served : (s.feed serial f).served = s.served := by
  rw [feed]
  split <;> rfl

@[simp] theorem feed_dropped : (s.feed serial f).dropped = s.dropped := by
  rw [feed]
  split <;> rfl

@[simp] theorem feed_listener : (s.feed serial f).listener = s.listener := by
  rw [feed]
  split <;> rfl

@[simp] theorem feed_dispatcher : (s.feed serial f).dispatcher = s.dispatcher := by
  rw [feed]
  split <;> rfl

@[simp] theorem feed_closeRequested : (s.feed serial f).closeRequested = s.closeRequested := by
  rw [feed]
  split <;> rfl

@[simp] theorem feed_stopping : (s.feed serial f).stopping = s.stopping := by
  rw [feed]
  split <;> rfl

@[simp] theorem feed_signal : (s.feed serial f).signal = s.signal := by
  rw [feed]
  split <;> rfl

@[simp] theorem feed_trackerClosed : (s.feed serial f).trackerClosed = s.trackerClosed := by
  rw [feed]
  split <;> rfl

@[simp] theorem feed_abandoned : (s.feed serial f).abandoned = s.abandoned := by
  rw [feed]
  split <;> rfl

@[simp] theorem feed_starts : (s.feed serial f).starts = s.starts := by
  rw [feed]
  split <;> rfl

@[simp] theorem feed_stops : (s.feed serial f).stops = s.stops := by
  rw [feed]
  split <;> rfl

@[simp] theorem feed_waits : (s.feed serial f).waits = s.waits := by
  rw [feed]
  split <;> rfl

end Fields

/-- One step of the acceptor; none where it waits or is not running.  Between looking whether it is
to close the listener and what it does then, anything may happen; only a wait is broken off. -/
def stepAcceptor (s : Supervisor σ) : Option (Supervisor σ) :=
  match s.acceptor with
  | .polling =>
    some (if s.closeRequested then s.endAcceptor else { s with acceptor := .accepting })
  | .accepting =>
    match s.backlog with
    | caller :: backlog => some { s with
        acceptor := .holding caller
        backlog
        accepted := s.accepted ++ [caller.serial] }
    | [] => if s.closeRequested then some s.endAcceptor else none
  | .holding caller =>
    some (if s.closeRequested then s.endAcceptor else { s with acceptor := .sending caller })
  | .sending caller =>
    -- without a dispatcher nobody will take the connection out of the queue
    if s.dispatcher = .ended then some s.endAcceptor
    else if s.queue.length < s.capacity then
      some { s with acceptor := .polling, queue := s.queue ++ [caller] }
    else if s.closeRequested then some s.endAcceptor
    else none
  | _ => none

/-- The listener fails while the acceptor waits for a connection. -/
def failListener (s : Supervisor σ) : Option (Supervisor σ) :=
  match s.acceptor with
  | .accepting => some s.endAcceptor
  | _ => none

/-- One step of the dispatcher; none where it waits or is not running.  Between looking for the
signal and looking into the queue anything may happen, the signal included; only a wait is broken
off. -/
def stepDispatcher (s : Supervisor σ) : Option (Supervisor σ) :=
  match s.dispatcher with
  | .waiting accepting =>
    if s.signal.arrived then some { s with dispatcher := .closing }
    else if accepting then some { s with dispatcher := .turning }
    else none
  | .turning =>
    match s.queue with
    | caller :: queue => some { s with
        dispatcher := .waiting true
        queue
        hub := s.hub.accept caller.peer caller.feed
        served := s.served ++ [caller.serial] }
    | [] =>
      if s.acceptor.hasEnded then some { s with dispatcher := .waiting false }
      else if s.signal.arrived then some { s with dispatcher := .closing }
      else none
  | .closing => some { s with closeRequested := true, dispatcher := .sweeping }
  | .sweeping => some { s with hub := s.hub.shutdownAll, dispatcher := .leaving }
  | .leaving => some { s with
      dispatcher := .ended
      queue := []
      dropped := s.dropped ++ s.queue.map (·.serial) }
  | _ => none

/-! ### Actions -/

/-- What may happen next in an input. -/
inductive Action where
  | start
  | stepStart (k : Nat)
  | stop
  | stepStop (k : Nat)
  | wait
  | stepWait (k : Nat)
  | abandon
  | connect (peer : String)
  /-- Something arrives on a connection. -/
  | arrive (serial : Nat) (arrival : Arrival)
  /-- The client of a connection sends no more. -/
  | close (serial : Nat)
  | stepAcceptor
  | failListener
  | stepDispatcher
  | stepSession (i : Nat)
  /-- A session breaks off its read, since its client was shut down. -/
  | abortSession (i : Nat)
  deriving Repr

/-- The input after an action; none if the action cannot happen. -/
def act [Sink σ] (s : Supervisor σ) : Action → Option (Supervisor σ)
  | .start => s.beginStart
  | .stepStart k => s.stepStart k
  | .stop => s.beginStop
  | .stepStop k => s.stepStop k
  | .wait => s.beginWait
  | .stepWait k => s.stepWait k
  | .abandon => s.abandon
  | .connect peer => s.connect peer
  | .arrive serial arrival => some (s.feed serial (·.push arrival))
  | .close serial => some (s.feed serial (·.close))
  | .stepAcceptor => s.stepAcceptor
  | .failListener => s.failListener
  | .stepDispatcher => s.stepDispatcher
  | .stepSession i => (s.hub.advance i).map fun hub => { s with hub }
  | .abortSession i => (s.hub.abort i).map fun hub => { s with hub }

/-! ### Settling -/

/-- What acceptor and dispatcher have before them. -/
def potential (s : Supervisor σ) : Nat :=
  6 * s.backlog.length + 2 * s.queue.length + s.acceptor.rank + s.dispatcher.rank

/-- An acceptor that has ended has nothing to do. -/
private theorem potential_endAcceptor (s : Supervisor σ) :
    s.endAcceptor.potential = 2 * s.queue.length + s.dispatcher.rank := by
  simp [potential]

private theorem potential_stepAcceptor {s s' : Supervisor σ} (h : s.stepAcceptor = some s') :
    s'.potential < s.potential := by
  have closed := potential_endAcceptor s
  have whole : s.potential =
      6 * s.backlog.length + 2 * s.queue.length + s.acceptor.rank + s.dispatcher.rank := rfl
  rw [stepAcceptor] at h
  cases acceptor : s.acceptor with
  | unborn => simp [acceptor] at h
  | ended => simp [acceptor] at h
  | polling =>
    simp only [acceptor, Acceptor.rank] at h whole
    cases h
    split
    · omega
    · rw [whole]
      simp only [potential, Acceptor.rank]
      omega
  | accepting =>
    simp only [acceptor, Acceptor.rank] at h whole
    split at h
    · cases h
      rename_i backlog
      rw [whole, backlog]
      simp only [potential, Acceptor.rank, List.length_cons]
      omega
    · split at h
      · cases h
        omega
      · cases h
  | holding caller =>
    simp only [acceptor, Acceptor.rank] at h whole
    cases h
    split
    · omega
    · rw [whole]
      simp only [potential, Acceptor.rank]
      omega
  | sending caller =>
    simp only [acceptor, Acceptor.rank] at h whole
    split at h
    · cases h
      omega
    · split at h
      · cases h
        rw [whole]
        simp only [potential, Acceptor.rank, List.length_append, List.length_singleton]
        omega
      · split at h
        · cases h
          omega
        · cases h

private theorem potential_stepDispatcher {s s' : Supervisor σ} (h : s.stepDispatcher = some s') :
    s'.potential < s.potential := by
  have whole : s.potential =
      6 * s.backlog.length + 2 * s.queue.length + s.acceptor.rank + s.dispatcher.rank := rfl
  rw [stepDispatcher] at h
  cases dispatcher : s.dispatcher with
  | unborn => simp [dispatcher] at h
  | ended => simp [dispatcher] at h
  | waiting accepting =>
    simp only [dispatcher] at h whole
    split at h
    · cases h
      rw [whole]
      cases accepting <;> simp [potential]
    · cases accepting with
      | false => simp at h
      | true =>
        cases h
        rw [whole]
        simp [potential]
  | turning =>
    simp only [dispatcher, Dispatcher.rank] at h whole
    split at h
    · cases h
      rename_i queue
      rw [whole, queue]
      simp only [potential, Dispatcher.rank, List.length_cons]
      omega
    · split at h
      · cases h
        rw [whole]
        simp [potential]
      · split at h
        · cases h
          rw [whole]
          simp [potential]
        · cases h
  | closing =>
    simp only [dispatcher] at h whole
    cases h
    rw [whole]
    simp [potential]
  | sweeping =>
    simp only [dispatcher] at h whole
    cases h
    rw [whole]
    simp [potential]
  | leaving =>
    simp only [dispatcher] at h whole
    cases h
    rw [whole]
    simp only [potential, Dispatcher.rank, List.length_nil]
    omega

/-- Lets acceptor and dispatcher do all that they can do. -/
def dispatchAll (s : Supervisor σ) : Supervisor σ :=
  match h : s.stepDispatcher with
  | some next =>
    have := potential_stepDispatcher h
    next.dispatchAll
  | none =>
    match h : s.stepAcceptor with
    | some next =>
      have := potential_stepAcceptor h
      next.dispatchAll
    | none => s
termination_by s.potential

/-- Lets acceptor, dispatcher and sessions do all that they can do. -/
def settle [Sink σ] (s : Supervisor σ) : Supervisor σ :=
  let s := s.dispatchAll
  { s with hub := s.hub.runAll }

/-! ### Whole calls -/

/-- A call to start, from beginning to end. -/
def start (s : Supervisor σ) : Supervisor σ :=
  match s.beginStart with
  | some begun =>
    let k := s.starts.length
    (List.range 3).foldl (fun s _ => (s.stepStart k).getD s) begun
  | none => s

/-- A call to stop, from beginning to end, and what it returns. -/
def stop (s : Supervisor σ) : Bool × Supervisor σ :=
  match s.beginStop with
  | some begun =>
    let k := s.stops.length
    let s := (List.range 2).foldl (fun s _ => (s.stepStop k).getD s) begun
    (s.stops[k]? == some (.returned true), s)
  | none => (false, s)

/-- A call to wait on an input that has settled, and whether it returns. -/
def wait (s : Supervisor σ) : Bool × Supervisor σ :=
  match s.beginWait.bind fun begun => begun.stepWait s.waits.length with
  | some s => (true, s)
  | none => (false, s)

end Supervisor

end ForwardIntake
