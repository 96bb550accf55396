import ForwardIntake.IoError
import ForwardIntake.Record

/-!
# Sinks

A sink is given the batches that are decoded from messages, one at a time, by the session that
decoded them.  It takes a batch, refuses it, or has no room for it yet; then the session waits.  A
batch that is refused is not offered again.
-/

namespace ForwardIntake

/-- Why a sink refuses a batch. -/
inductive SinkError where
  /-- Nobody takes batches out of the sink any more. -/
  | closed
  | io (error : IoError)
  /-- The sink does not want the batch. -/
  | rejected (reason : String)
  deriving DecidableEq, Repr

/-- The text of an error. -/
def SinkError.message : SinkError → String
  | .closed => "sink closed"
  | .io error => error.message
  | .rejected reason => "rejected: " ++ reason

/-- What becomes of a batch that is offered to a sink. -/
inductive Emission where
  | delivered
  /-- There is no room for the batch yet. -/
  | stalled
  | refused (error : SinkError)
  deriving DecidableEq, Repr

/-- A type of sinks. -/
class Sink (σ : Type) where
  /-- Offers a batch to the sink. -/
  emit : σ → Batch → Emission × σ

end ForwardIntake
