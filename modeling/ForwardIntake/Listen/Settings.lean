/-!
# Settings of an input

Where an input listens, how large a message may be, and how many connections may wait between being
accepted and being served.
-/

namespace ForwardIntake

/-- The settings of an input. -/
structure Settings where
  /-- The text of the listen address. -/
  bind : String
  /-- The most bytes that a message may have. -/
  maxMessageSize : Nat
  /-- How many accepted connections may wait to be served. -/
  acceptQueue : Nat
  deriving DecidableEq, Repr

namespace Settings

/-- The version of the program. -/
def version : String :=
  "0.1.0"

/-- The usual port of forward messages. -/
def defaultPort : Nat :=
  24224

/-- Where an input listens by itself. -/
def defaultBind : String :=
  "tcp://127.0.0.1:" ++ toString defaultPort

/-- The size to which messages are limited by themselves, 64 MiB. -/
def defaultMaxMessageSize : Nat :=
  64 * 1024 * 1024

/-- The settings of an input that listens at an address. -/
def new (bind : String) : Settings :=
  ⟨bind, defaultMaxMessageSize, 16⟩

/-- The settings of an input about which nothing was said. -/
def default : Settings :=
  new defaultBind

/-- The settings with another limit on messages. -/
def withMaxMessageSize (n : Nat) (s : Settings) : Settings :=
  { s with maxMessageSize := n }

/-- The settings with room for so many waiting connections, one at least. -/
def withAcceptQueue (n : Nat) (s : Settings) : Settings :=
  { s with acceptQueue := max n 1 }

end Settings

end ForwardIntake
