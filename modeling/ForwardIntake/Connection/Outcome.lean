import ForwardIntake.Message.Error
import ForwardIntake.Sink.Basic

/-!
# How sessions end

Every session ends for exactly one reason, and a client that closes its connection between two
messages is one of them.
-/

namespace ForwardIntake

/-- Why a session ended. -/
inductive Outcome where
  | io (error : IoError)
  | decode (error : DecodeError)
  /-- The stream ended between two messages. -/
  | disconnected
  /-- The stream ended inside a message. -/
  | unexpectedEnd
  /-- A message does not fit into `limit` bytes. -/
  | tooLarge (limit : Nat)
  | sink (error : SinkError)
  /-- The client was shut down. -/
  | shutdown
  deriving Repr

/-- The text of an outcome. -/
def Outcome.message : Outcome → String
  | .io error => error.message
  | .decode error => "decode error: " ++ error.message
  | .disconnected => "client disconnected"
  | .unexpectedEnd => "unexpected end of stream"
  | .tooLarge limit => "message exceeds " ++ toString limit ++ " bytes"
  | .sink error => "sink error: " ++ error.message
  | .shutdown => "connection closed by shutdown"

end ForwardIntake
