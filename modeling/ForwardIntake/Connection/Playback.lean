import ForwardIntake.Connection.Hub

/-!
# Playing back recorded streams

A session is run on a recording: what each of its reads meets, in order, and after that the end of
the stream for ever.  While a read is in progress every client may be shut down.
-/

namespace ForwardIntake

/-- What one recorded read meets. -/
inductive Recorded where
  | arrival (arrival : Arrival)
  /-- All clients are shut down, and the read never comes back. -/
  | shutdown
  /-- All clients are shut down, and the read still comes to bytes. -/
  | shutdownThen (bytes : Bytes)
  deriving Repr

namespace Hub

variable {σ : Type} [Sink σ]

/-- Runs a session on a recording until it is over. -/
def playFrom (i : Nat) (h : Hub σ) : List Recorded → Hub σ
  | [] => (h.feed i (·.close)).run i
  | read :: rest =>
    if h.isOver i then h
    else
      match read with
      | .arrival arrival => playFrom i ((h.feed i (·.push arrival)).run i) rest
      | .shutdown => h.shutdownAll.run i
      | .shutdownThen bytes =>
        playFrom i ((h.shutdownAll.feed i (·.push (.chunk bytes))).run i) rest

/-- Runs a new session on a recording until it is over. -/
def play (i : Nat) (recording : List Recorded) (h : Hub σ) : Hub σ :=
  (h.run i).playFrom i recording

end Hub

end ForwardIntake
