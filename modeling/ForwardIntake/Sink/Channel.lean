import ForwardIntake.Sink.Basic

/-!
# Channels

A channel is a bounded queue of batches between sessions and one receiver.  There may be any number
of senders.  Once the receiver is gone every batch is refused; once the queue is empty and no sender
is left the receiver learns that nothing will come any more.
-/

namespace ForwardIntake

/-- A bounded queue of batches. -/
structure Channel where
  capacity : Nat
  /-- The batches that were sent and not received, oldest first. -/
  queue : List Batch
  senders : Nat
  /-- Whether the receiver is still there. -/
  receiving : Bool
  deriving Repr

/-- What a receiver finds in a channel. -/
inductive Received where
  | batch (batch : Batch)
  | empty
  /-- The queue is empty and no sender is left. -/
  | disconnected
  deriving Repr

namespace Channel

/-- An empty channel with one sender and its receiver. -/
def ofCapacity (capacity : Nat) : Channel :=
  ⟨capacity, [], 1, true⟩

/-- Offers a batch to the receiver. -/
def send (c : Channel) (batch : Batch) : Emission × Channel :=
  if !c.receiving then (.refused .closed, c)
  else if c.capacity ≤ c.queue.length then (.stalled, c)
  else (.delivered, { c with queue := c.queue ++ [batch] })

instance : Sink Channel := ⟨send⟩

/-- Takes the oldest batch out of a channel. -/
def receive (c : Channel) : Received × Channel :=
  match c.queue with
  | batch :: queue => (.batch batch, { c with queue })
  | [] => (if c.senders = 0 then .disconnected else .empty, c)

/-- Takes all batches out of a channel, oldest first. -/
def receiveAll (c : Channel) : List Batch × Channel :=
  (c.queue, { c with queue := [] })

/-- The channel with one more sender. -/
def addSender (c : Channel) : Channel :=
  { c with senders := c.senders + 1 }

/-- The channel with one sender less. -/
def dropSender (c : Channel) : Channel :=
  { c with senders := c.senders - 1 }

/-- The channel without its receiver.  What was queued is lost. -/
def close (c : Channel) : Channel :=
  { c with queue := [], receiving := false }

end Channel

end ForwardIntake
