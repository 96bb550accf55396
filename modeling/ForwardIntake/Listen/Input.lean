import ForwardIntake.Listen.Host
import ForwardIntake.Listen.Settings
import ForwardIntake.Listen.Supervisor

/-!
# Inputs

An input listens at an address for the clients that send forward messages.  It is opened with its
settings and a sink; that fails if its address is none, or if no socket can be opened there.
-/

namespace ForwardIntake

/-- Why an input cannot be opened. -/
inductive InputError where
  | invalidAddress (text : String)
  | listenFailure (bind : String) (cause : BindError)
  deriving DecidableEq, Repr

/-- The text of an error. -/
def InputError.message : InputError → String
  | .invalidAddress text => "invalid listen address: " ++ Quoted.write text
  | .listenFailure bind cause => "failed to listen on " ++ bind ++ ": " ++ cause.message

/-- The address that a text is, or the error that it is none. -/
def ListenAddress.parse (text : String) : Except InputError ListenAddress :=
  match ListenAddress.parse? text with
  | some address => .ok address
  | none => .error (.invalidAddress text)

/-- An input. -/
structure Input (σ : Type) where
  settings : Settings
  address : ListenAddress
  /-- Where the socket of the input is open. -/
  bound : Host.Bound
  supervisor : Supervisor σ

namespace Input

variable {σ : Type}

/-- Opens an input on a host. -/
def listen (host : Host) (settings : Settings) (sink : σ) : Except InputError (Input σ) := do
  let address ← ListenAddress.parse settings.bind
  match host.bind address with
  | .ok bound =>
    return ⟨settings, address, bound, .new settings.acceptQueue settings.maxMessageSize sink⟩
  | .error cause => throw (.listenFailure settings.bind cause)

/-- The text that stands for an input. -/
def display (input : Input σ) : String :=
  "forward input (" ++ input.settings.bind ++ ")"

/-- A client connects to an input; none if the client is refused. -/
def connect (host : Host) (peer : String) (input : Input σ) : Option (Input σ) :=
  if input.address.transport ∈ host.transports then
    (input.supervisor.connect peer).map fun supervisor => { input with supervisor }
  else none

/-- Whether the file of the socket is there: it goes away when the listener is closed. -/
def socketExists (input : Input σ) : Bool :=
  input.bound.file.isSome && input.supervisor.listener != .closed

end Input

end ForwardIntake
