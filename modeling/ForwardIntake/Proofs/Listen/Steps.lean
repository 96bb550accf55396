import ForwardIntake.Listen.Supervisor
import ForwardIntake.Proofs.Connection.Steps

/-!
# What an input can do

The actions of an input, taken apart once.  `Supervisor.Call` says all that a call to the input can
come to, `Supervisor.Accepting` and `Supervisor.Dispatching` all that the acceptor and the
dispatcher can do, and `Supervisor.Change` all that an action can make of an input.  The hub of an
input is a hub that runs along (`Supervisor.hub_of_reaches`).
-/

namespace ForwardIntake

namespace Supervisor

variable {σ : Type} {s s' : Supervisor σ}

/-! ### Calls -/

/-- All that a call to start, to stop or to wait can come to, and giving up the input. -/
inductive Call (s : Supervisor σ) : Supervisor σ → Prop where
  | claims (present : s.abandoned = false) (listener : s.listener = .held) :
    Call s { s with listener := .serving, starts := s.starts ++ [.claimed] }
  | startsAgain (present : s.abandoned = false) (listener : s.listener ≠ .held) :
    Call s { s with starts := s.starts ++ [.returned false] }
  | spawnsAcceptor {k : Nat} (call : s.starts[k]? = some .claimed) :
    Call s { s with acceptor := .polling, starts := s.starts.set k .acceptorStarted }
  | spawnsDispatcher {k : Nat} (call : s.starts[k]? = some .acceptorStarted) :
    Call s { s with dispatcher := .waiting true, starts := s.starts.set k .dispatcherStarted }
  | hasStarted {k : Nat} (call : s.starts[k]? = some .dispatcherStarted) :
    Call s { s with trackerClosed := true, starts := s.starts.set k (.returned true) }
  | asks (present : s.abandoned = false) (stopping : s.stopping = false) :
    Call s { s with stopping := true, stops := s.stops ++ [.won] }
  | asksAgain (present : s.abandoned = false) (stopping : s.stopping = true) :
    Call s { s with stops := s.stops ++ [.returned false] }
  | takesSignal {k : Nat} (call : s.stops[k]? = some .won) (signal : s.signal = .held) :
    Call s { s with signal := .taken, stops := s.stops.set k .signalling }
  | missesSignal {k : Nat} (call : s.stops[k]? = some .won) (signal : s.signal ≠ .held) :
    Call s { s with stops := s.stops.set k (.returned false) }
  | sendsSignal {k : Nat} (call : s.stops[k]? = some .signalling) :
    Call s { s with signal := .sent, stops := s.stops.set k (.returned true) }
  | waits (present : s.abandoned = false) :
    Call s { s with trackerClosed := true, waits := s.waits ++ [.waiting] }
  | hasWaited {k : Nat} (call : s.waits[k]? = some .waiting)
    (idle : (s.trackerClosed && s.isIdle) = true) :
    Call s { s with waits := s.waits.set k .returned }
  | abandons (present : s.abandoned = false) (returned : s.callsReturned = true) :
    Call s { s with
      abandoned := true
      signal := if s.signal = .held then .lost else s.signal
      listener := if s.listener = .held then .closed else s.listener
      backlog := if s.listener = .held then [] else s.backlog }

/-- Beginning to start is a call. -/
private theorem Call.of_beginStart (h : s.beginStart = some s') : Call s s' := by
  rw [beginStart] at h
  split at h
  · cases h
  · rename_i present
    rw [Bool.not_eq_true] at present
    split at h
    · rename_i listener
      cases h
      exact .claims present listener
    · rename_i listener
      cases h
      exact .startsAgain present listener

private theorem Call.of_stepStart {k : Nat} (h : s.stepStart k = some s') : Call s s' := by
  rw [stepStart] at h
  split at h
  · rename_i call
    cases h
    exact .spawnsAcceptor call
  · rename_i call
    cases h
    exact .spawnsDispatcher call
  · rename_i call
    cases h
    exact .hasStarted call
  · cases h

private theorem Call.of_beginStop (h : s.beginStop = some s') : Call s s' := by
  rw [beginStop] at h
  split at h
  · cases h
  · rename_i present
    rw [Bool.not_eq_true] at present
    split at h
    · rename_i stopping
      cases h
      exact .asksAgain present stopping
    · rename_i stopping
      rw [Bool.not_eq_true] at stopping
      cases h
      exact .asks present stopping

private theorem Call.of_stepStop {k : Nat} (h : s.stepStop k = some s') : Call s s' := by
  rw [stepStop] at h
  split at h
  · rename_i call
    split at h
    · rename_i signal
      cases h
      exact .takesSignal call signal
    · rename_i signal
      cases h
      exact .missesSignal call signal
  · rename_i call
    cases h
    exact .sendsSignal call
  · cases h

private theorem Call.of_beginWait (h : s.beginWait = some s') : Call s s' := by
  rw [beginWait] at h
  split at h
  · cases h
  · rename_i present
    rw [Bool.not_eq_true] at present
    cases h
    exact .waits present

private theorem Call.of_stepWait {k : Nat} (h : s.stepWait k = some s') : Call s s' := by
  rw [stepWait] at h
  split at h
  · rename_i call
    split at h
    · rename_i idle
      cases h
      exact .hasWaited call idle
    · cases h
  · cases h

private theorem Call.of_abandon (h : s.abandon = some s') : Call s s' := by
  rw [abandon] at h
  split at h
  · cases h
  · rename_i present
    rw [Bool.not_eq_true] at present
    split at h
    · rename_i returned
      cases h
      exact .abandons present returned
    · cases h

/-! ### Acceptor and dispatcher -/

/-- All that the acceptor can do. -/
inductive Accepting (s : Supervisor σ) : Supervisor σ → Prop where
  | goesOn (acceptor : s.acceptor = .polling) (asked : s.closeRequested = false) :
    Accepting s { s with acceptor := .accepting }
  | takes {caller : Caller} {backlog : List Caller} (acceptor : s.acceptor = .accepting)
    (waiting : s.backlog = caller :: backlog) :
    Accepting s { s with
      acceptor := .holding caller
      backlog
      accepted := s.accepted ++ [caller.serial] }
  | offers {caller : Caller} (acceptor : s.acceptor = .holding caller)
    (asked : s.closeRequested = false) : Accepting s { s with acceptor := .sending caller }
  | passesOn {caller : Caller} (acceptor : s.acceptor = .sending caller)
    (dispatcher : s.dispatcher ≠ .ended) (room : s.queue.length < s.capacity) :
    Accepting s { s with acceptor := .polling, queue := s.queue ++ [caller] }
  /-- It was asked to, the listener has failed, or the dispatcher has ended. -/
  | ends (running : s.acceptor.isRunning = true)
    (reason : s.closeRequested = true ∨ s.acceptor = .accepting ∨ s.dispatcher = .ended) :
    Accepting s s.endAcceptor

/-- An acceptor that is asked to leave does so. -/
private theorem Accepting.of_asked (running : s.acceptor.isRunning = true)
    (asked : s.closeRequested = true) : Accepting s s.endAcceptor :=
  .ends running (.inl asked)

/-- Each step of the acceptor is accepting. -/
private theorem Accepting.of_stepAcceptor (h : s.stepAcceptor = some s') : Accepting s s' := by
  rw [stepAcceptor] at h
  split at h
  · rename_i acceptor
    cases h
    split
    · rename_i asked
      exact .of_asked (by simp [acceptor]) asked
    · rename_i asked
      exact .goesOn acceptor (Bool.not_eq_true _ ▸ asked)
  · rename_i acceptor
    split at h
    · rename_i waiting
      cases h
      exact .takes acceptor waiting
    · split at h
      · rename_i asked
        cases h
        exact .of_asked (by simp [acceptor]) asked
      · cases h
  · rename_i acceptor
    cases h
    split
    · rename_i asked
      exact .of_asked (by simp [acceptor]) asked
    · rename_i asked
      exact .offers acceptor (Bool.not_eq_true _ ▸ asked)
  · rename_i acceptor
    split at h
    · rename_i dispatcher
      cases h
      exact .ends (by simp [acceptor]) (.inr (.inr dispatcher))
    · rename_i dispatcher
      split at h
      · rename_i room
        cases h
        exact .passesOn acceptor dispatcher room
      · split at h
        · rename_i asked
          cases h
          exact .of_asked (by simp [acceptor]) asked
        · cases h
  · cases h

/-- A listener that fails ends the acceptor. -/
private theorem Accepting.of_failListener (h : s.failListener = some s') : Accepting s s' := by
  rw [failListener] at h
  split at h
  · rename_i acceptor
    cases h
    exact .ends (by simp [acceptor]) (.inr (.inl acceptor))
  · cases h

/-- All that the dispatcher can do. -/
inductive Dispatching (s : Supervisor σ) : Supervisor σ → Prop where
  | turns (dispatcher : s.dispatcher = .waiting true) (signal : s.signal.arrived = false) :
    Dispatching s { s with dispatcher := .turning }
  | serves {caller : Caller} {queue : List Caller} (dispatcher : s.dispatcher = .turning)
    (waiting : s.queue = caller :: queue) :
    Dispatching s { s with
      dispatcher := .waiting true
      queue
      hub := s.hub.accept caller.peer caller.feed
      served := s.served ++ [caller.serial] }
  /-- No more connections will come. -/
  | misses (dispatcher : s.dispatcher = .turning) (waiting : s.queue = [])
    (acceptor : s.acceptor.hasEnded = true) :
    Dispatching s { s with dispatcher := .waiting false }
  /-- The signal has arrived while the dispatcher waited for it, or for a connection. -/
  | stops (dispatcher : (∃ accepting, s.dispatcher = .waiting accepting) ∨
      s.dispatcher = .turning ∧ s.queue = []) (signal : s.signal.arrived = true) :
    Dispatching s { s with dispatcher := .closing }
  | closes (dispatcher : s.dispatcher = .closing) :
    Dispatching s { s with closeRequested := true, dispatcher := .sweeping }
  | sweeps (dispatcher : s.dispatcher = .sweeping) :
    Dispatching s { s with hub := s.hub.shutdownAll, dispatcher := .leaving }
  | leaves (dispatcher : s.dispatcher = .leaving) :
    Dispatching s { s with
      dispatcher := .ended
      queue := []
      dropped := s.dropped ++ s.queue.map (·.serial) }

/-- Each step of the dispatcher is dispatching. -/
private theorem Dispatching.of_stepDispatcher (h : s.stepDispatcher = some s') :
    Dispatching s s' := by
  rw [stepDispatcher] at h
  split at h
  · rename_i accepting dispatcher
    split at h
    · rename_i signal
      cases h
      exact .stops (.inl ⟨accepting, dispatcher⟩) signal
    · rename_i signal
      rw [Bool.not_eq_true] at signal
      split at h
      · rename_i haccepting
        rw [haccepting] at dispatcher
        cases h
        exact .turns dispatcher signal
      · cases h
  · rename_i dispatcher
    split at h
    · rename_i waiting
      cases h
      exact .serves dispatcher waiting
    · rename_i waiting
      split at h
      · rename_i acceptor
        cases h
        exact .misses dispatcher waiting acceptor
      · split at h
        · rename_i signal
          cases h
          exact .stops (.inr ⟨dispatcher, waiting⟩) signal
        · cases h
  · rename_i dispatcher
    cases h
    exact .closes dispatcher
  · rename_i dispatcher
    cases h
    exact .sweeps dispatcher
  · rename_i dispatcher
    cases h
    exact .leaves dispatcher
  · cases h

/-! ### Actions -/

variable [Sink σ]

/-- All that an action can make of an input. -/
inductive Change (s : Supervisor σ) : Supervisor σ → Prop where
  | calls {s' : Supervisor σ} (call : Call s s') : Change s s'
  | connects (peer : String) (listener : s.listener ≠ .closed) :
    Change s { s with
      connected := s.connected + 1
      backlog := s.backlog ++ [⟨s.connected, peer, .silent⟩] }
  | arrives (serial : Nat) (arrival : Arrival) : Change s (s.feed serial (·.push arrival))
  | closes (serial : Nat) : Change s (s.feed serial (·.close))
  | accepts {s' : Supervisor σ} (accepting : Accepting s s') : Change s s'
  | dispatches {s' : Supervisor σ} (dispatching : Dispatching s s') : Change s s'
  | advances {i : Nat} {hub : Hub σ} (session : s.hub.advance i = some hub) :
    Change s { s with hub }
  | aborts {i : Nat} {hub : Hub σ} (session : s.hub.abort i = some hub) : Change s { s with hub }

/-- **Every action is one of the changes.** -/
theorem Change.of_act {a : Action} (h : s.act a = some s') : Change s s' := by
  cases a with
  | start => exact .calls (.of_beginStart h)
  | stepStart k => exact .calls (.of_stepStart h)
  | stop => exact .calls (.of_beginStop h)
  | stepStop k => exact .calls (.of_stepStop h)
  | wait => exact .calls (.of_beginWait h)
  | stepWait k => exact .calls (.of_stepWait h)
  | abandon => exact .calls (.of_abandon h)
  | connect peer =>
    simp only [act, connect] at h
    split at h
    · cases h
    · rename_i listener
      cases h
      exact .connects peer listener
  | arrive serial arrival =>
    cases h
    exact .arrives serial arrival
  | close serial =>
    cases h
    exact .closes serial
  | stepAcceptor => exact .accepts (.of_stepAcceptor h)
  | failListener => exact .accepts (.of_failListener h)
  | stepDispatcher => exact .dispatches (.of_stepDispatcher h)
  | stepSession i =>
    obtain ⟨hub, hadvance, rfl⟩ := Option.map_eq_some_iff.1 h
    exact .advances hadvance
  | abortSession i =>
    obtain ⟨hub, habort, rfl⟩ := Option.map_eq_some_iff.1 h
    exact .aborts habort

/-- Whatever is no call leaves the calls to stop and the signal as they are. -/
theorem Change.call_or_keeps (h : Change s s') :
    Call s s' ∨ s'.stops = s.stops ∧ s'.stopping = s.stopping ∧ s'.signal = s.signal ∧
      s'.abandoned = s.abandoned := by
  cases h with
  | calls call => exact .inl call
  | connects | advances | aborts => exact .inr ⟨rfl, rfl, rfl, rfl⟩
  | arrives | closes => exact .inr (by simp)
  | accepts accepting => cases accepting <;> exact .inr ⟨rfl, rfl, rfl, rfl⟩
  | dispatches dispatching => cases dispatching <;> exact .inr ⟨rfl, rfl, rfl, rfl⟩

/-! ### The hub of an input -/

omit [Sink σ] in
/-- Calls leave the hub. -/
theorem Call.hub_eq (h : Call s s') : s'.hub = s.hub := by
  cases h <;> rfl

omit [Sink σ] in
/-- The acceptor leaves the hub. -/
private theorem Accepting.hub_eq (h : Accepting s s') : s'.hub = s.hub := by
  cases h <;> rfl

/-- A change leaves the hub or is an action of it. -/
private theorem Change.hub (h : Change s s') : s'.hub = s.hub ∨ ∃ a, s.hub.act a = some s'.hub := by
  cases h with
  | calls call => exact .inl call.hub_eq
  | connects => exact .inl rfl
  | arrives serial arrival =>
    rw [feed]
    split
    · exact .inr ⟨.arrive _ arrival, rfl⟩
    · exact .inl rfl
  | closes serial =>
    rw [feed]
    split
    · exact .inr ⟨.close _, rfl⟩
    · exact .inl rfl
  | accepts accepting => exact .inl accepting.hub_eq
  | dispatches dispatching =>
    cases dispatching with
    | serves => exact .inr ⟨.accept _ _, rfl⟩
    | sweeps => exact .inr ⟨.shutdownAll, rfl⟩
    | turns | misses | stops | closes | leaves => exact .inl rfl
  | @advances i hub session => exact .inr ⟨.advance i, session⟩
  | @aborts i hub session => exact .inr ⟨.abort i, session⟩

/-- **The hub runs along.** -/
theorem hub_of_reaches (h : Reaches act s s') : Reaches Hub.act s.hub s'.hub :=
  h.part (·.hub) fun hact => (Change.of_act hact).hub

end Supervisor

end ForwardIntake
