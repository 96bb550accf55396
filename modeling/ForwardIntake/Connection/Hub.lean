import ForwardIntake.Connection.Session

/-!
# Hubs

A hub holds the sessions of one input and what they share: the registry of live clients, the
counters and the sink.  Its actions are the steps of single sessions and what may happen between two
of them, so any run of the sessions side by side is a sequence of actions (`Hub.act`).  A client is
in the registry from the making of its session until the session is over.

`Hub.run` takes one session as far as it goes.
-/

namespace ForwardIntake

/-- The sessions of one input and what they share. -/
structure Hub (σ : Type) where
  /-- The most bytes that a message may have. -/
  limit : Nat
  registry : Registry
  stats : Stats
  sink : σ
  /-- All sessions, in the order in which they were made. -/
  sessions : List Session

namespace Hub

variable {σ : Type}

/-- A hub without sessions. -/
def new (limit : Nat) (sink : σ) : Hub σ :=
  ⟨limit, .empty, .zero, sink, []⟩

@[simp] theorem new_sessions (limit : Nat) (sink : σ) : (new limit sink).sessions = [] :=
  rfl

/-- Makes the session of a client and enters the client into the registry. -/
def accept (peer : String) (feed : Feed) (h : Hub σ) : Hub σ :=
  let (id, registry) := h.registry.allocate
  let (token, registry) := registry.issue
  { h with
    registry := registry.register ⟨id, peer, token⟩
    stats := h.stats.countClient
    sessions := h.sessions ++ [.new id token feed] }

/-- Puts a session in its place, and takes its client out of the registry once it is over. -/
def settle (i : Nat) (s : Session) (h : Hub σ) : Hub σ :=
  { h with
    registry := if s.phase.isOver then h.registry.deregister s.id else h.registry
    sessions := h.sessions.set i s }

/-- One step of a session; none where it waits or is over. -/
def advance [Sink σ] (i : Nat) (h : Hub σ) : Option (Hub σ) :=
  h.sessions[i]?.bind fun s =>
    (s.step h.limit (h.registry.isCancelled s.token) h.sink h.stats).map fun (s, sink, stats) =>
      { h with sink, stats }.settle i s

/-- Gives up a session that has not started. -/
def discard (i : Nat) (h : Hub σ) : Option (Hub σ) :=
  h.sessions[i]?.bind fun s =>
    match s.phase with
    | .created => some (h.settle i { s with phase := .discarded })
    | _ => none

/-- Breaks off the read in progress, since the client was shut down. -/
def abort (i : Nat) (h : Hub σ) : Option (Hub σ) :=
  h.sessions[i]?.bind fun s =>
    match s.phase with
    | .polling =>
      if h.registry.isCancelled s.token then some (h.settle i (s.finish .shutdown)) else none
    | _ => none

/-- Changes the stream of a session. -/
def feed (i : Nat) (f : Feed → Feed) (h : Hub σ) : Hub σ :=
  { h with sessions := h.sessions.modify i fun s => { s with feed := f s.feed } }

/-- Shuts down the client of a session. -/
def shutdown (i : Nat) (h : Hub σ) : Hub σ :=
  match h.sessions[i]? with
  | some s => { h with registry := h.registry.cancel s.token }
  | none => h

/-- Shuts down every client in the registry. -/
def shutdownAll (h : Hub σ) : Hub σ :=
  { h with registry := h.registry.shutdownAll.2 }

section Fields

variable (peer : String) (feed : Feed) (f : Feed → Feed) (i : Nat) (s : Session) (h : Hub σ)

@[simp] theorem accept_sessions : (h.accept peer feed).sessions =
    h.sessions ++ [.new h.registry.next ⟨h.registry.issued⟩ feed] :=
  rfl

@[simp] theorem settle_sessions : (h.settle i s).sessions = h.sessions.set i s :=
  rfl

@[simp] theorem feed_sessions :
    (h.feed i f).sessions = h.sessions.modify i fun s => { s with feed := f s.feed } :=
  rfl

end Fields

/-! ### Actions -/

/-- What may happen next in a hub. -/
inductive Action where
  | accept (peer : String) (feed : Feed)
  | advance (i : Nat)
  | discard (i : Nat)
  | abort (i : Nat)
  /-- Something arrives for a session. -/
  | arrive (i : Nat) (arrival : Arrival)
  /-- The client of a session sends no more. -/
  | close (i : Nat)
  | shutdown (i : Nat)
  | shutdownAll
  deriving Repr

/-- The hub after an action; none if the action cannot happen. -/
def act [Sink σ] (h : Hub σ) : Action → Option (Hub σ)
  | .accept peer feed => some (h.accept peer feed)
  | .advance i => h.advance i
  | .discard i => h.discard i
  | .abort i => h.abort i
  | .arrive i arrival => some (h.feed i (·.push arrival))
  | .close i => some (h.feed i (·.close))
  | .shutdown i => some (h.shutdown i)
  | .shutdownAll => some h.shutdownAll

/-! ### Running one session -/

/-- What a session has before it. -/
def potential (i : Nat) (h : Hub σ) : Nat :=
  (h.sessions[i]?.map Session.potential).getD 0

/-- Each step of a session leaves less to be done for it. -/
theorem potential_advance [Sink σ] {i : Nat} {h h' : Hub σ} (eq : h.advance i = some h') :
    h'.potential i < h.potential i := by
  simp only [advance, Option.bind_eq_some_iff, Option.map_eq_some_iff] at eq
  obtain ⟨s, at_i, ⟨s', sink, stats⟩, step, rfl⟩ := eq
  have inside : i < h.sessions.length := (List.getElem?_eq_some_iff.1 at_i).1
  simp only [potential, settle_sessions, List.getElem?_set_self inside, at_i, Option.map_some,
    Option.getD_some]
  exact Session.potential_step step

/-- Takes one session as far as it goes. -/
def run [Sink σ] (i : Nat) (h : Hub σ) : Hub σ :=
  match eq : h.advance i with
  | some next =>
    have := potential_advance eq
    run i next
  | none => h
termination_by h.potential i

/-- Takes each of the sessions from the `i`-th on as far as it goes, one after the other. -/
def runFrom [Sink σ] (i : Nat) : Nat → Hub σ → Hub σ
  | 0, h => h
  | n + 1, h => runFrom (i + 1) n (h.run i)

/-- Takes each session as far as it goes, one after the other. -/
def runAll [Sink σ] (h : Hub σ) : Hub σ :=
  h.runFrom 0 h.sessions.length

/-- How a session ended, if it did. -/
def outcome? (i : Nat) (h : Hub σ) : Option Outcome :=
  h.sessions[i]?.bind fun s =>
    match s.phase with
    | .finished outcome => some outcome
    | _ => none

/-- Whether a session is over. -/
def isOver (i : Nat) (h : Hub σ) : Bool :=
  match h.sessions[i]? with
  | some s => s.phase.isOver
  | none => true

end Hub

end ForwardIntake
