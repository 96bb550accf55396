import ForwardIntake.Listen.Input
import ForwardIntake.LogFilter
import ForwardIntake.Text.Natural

/-!
# The command line

The arguments are read from left to right.  A request for help or for the version counts from the
moment it is read, and so does a mistake; what follows is not looked at.  Of an option that is given
twice the later value counts.
-/

namespace ForwardIntake

namespace CommandLine

/-- What the arguments can set. -/
structure Options where
  bind : String
  maxMessageSize : Nat
  logLevel : String
  deriving DecidableEq, Repr

/-- The options about which nothing was said. -/
def Options.default : Options :=
  ⟨Settings.defaultBind, Settings.defaultMaxMessageSize, "info"⟩

/-- The settings of the input to be opened. -/
def Options.settings (o : Options) : Settings :=
  (Settings.new o.bind).withMaxMessageSize o.maxMessageSize

/-- What is said of the log filter before anything is served. -/
def Options.warnings (o : Options) : List String :=
  LogFilter.warnings o.logLevel

/-- What the arguments ask for. -/
inductive Invocation where
  | serve (options : Options)
  | help
  | version
  /-- The last argument is an option without its value. -/
  | missingValue (option : String)
  /-- The message size is no number below 2^64. -/
  | badSize
  | unknown (argument : String)
  deriving DecidableEq, Repr

/-- Reads arguments, on top of what was read before. -/
def parseFrom (o : Options) : List String → Invocation
  | [] => .serve o
  | [argument] =>
    if argument = "--bind" ∨ argument = "-b" then .missingValue "--bind"
    else if argument = "--max-message-size" then .missingValue "--max-message-size"
    else if argument = "--log-level" then .missingValue "--log-level"
    else if argument = "--help" ∨ argument = "-h" then .help
    else if argument = "--version" ∨ argument = "-v" then .version
    else .unknown argument
  | argument :: value :: rest =>
    if argument = "--bind" ∨ argument = "-b" then parseFrom { o with bind := value } rest
    else if argument = "--max-message-size" then
      match Natural.below? 0x10000000000000000 value with
      | some n => parseFrom { o with maxMessageSize := n } rest
      | none => .badSize
    else if argument = "--log-level" then parseFrom { o with logLevel := value } rest
    else if argument = "--help" ∨ argument = "-h" then .help
    else if argument = "--version" ∨ argument = "-v" then .version
    else .unknown argument

/-- Reads the arguments. -/
def parse (arguments : List String) : Invocation :=
  parseFrom .default arguments

/-! ### Reports -/

/-- What the program says until it ends. -/
structure Report where
  code : Nat
  stdout : String
  /-- The lines on standard error. -/
  stderr : List String
  deriving DecidableEq, Repr

/-- The lines of the help text. -/
def helpLines : List String :=
  ["",
   "FlashFwd - A Fluentd Forward Protocol Listener",
   "",
   "USAGE:",
   "    flashfwd [OPTIONS]",
   "",
   "OPTIONS:",
   "    -b, --bind <ADDR>               Listen address (default: " ++ Settings.defaultBind ++ ")",
   "        --max-message-size <BYTES>  Largest accepted message (default: "
     ++ toString Settings.defaultMaxMessageSize ++ ")",
   "        --log-level <FILTER>        Log filter when RUST_LOG is unset (default: info)",
   "    -v, --version                   Print version information",
   "    -h, --help                      Print this help message",
   "",
   "EXAMPLES:",
   "    flashfwd                                  # Listen on 127.0.0.1:24224",
   "    flashfwd --bind tcp://0.0.0.0:24224       # Listen on all interfaces",
   "    flashfwd --bind unix:///tmp/fluent.sock   # Listen on a Unix socket",
   "",
   "OUTPUT:",
   "    One JSON object per record on stdout; logs go to stderr.",
   "    $ echo '[\"app.log\", 1700000000, \x7b\"msg\": \"hi\"\x7d]' | nc 127.0.0.1 24224",
   "    \x7b\"tag\":\"app.log\",\"time\":1700000000,\"record\":\x7b\"msg\":\"hi\"\x7d\x7d",
   ""]

/-- The help text. -/
def helpText : String :=
  String.join (helpLines.map (· ++ "\n"))

/-- What the program says instead of serving; none if it is to serve. -/
def Invocation.report? : Invocation → Option Report
  | .serve _ => none
  | .help => some ⟨0, helpText, []⟩
  | .version => some ⟨0, "FlashFwd version " ++ Settings.version ++ "\n", []⟩
  | .missingValue option => some ⟨1, "", ["Error: " ++ option ++ " requires a value"]⟩
  | .badSize => some ⟨1, "", ["Error: invalid message size"]⟩
  | .unknown argument => some ⟨1, helpText, ["Unknown argument: " ++ argument]⟩

/-- The lines about an input that cannot be opened. -/
def failureLines (error : InputError) : List String :=
  let first := "Error: " ++ error.message
  match error with
  | .invalidAddress _ => [first]
  | .listenFailure _ cause => [first, "", "Caused by:", "    " ++ cause.message]

/-- What the program says when its input cannot be opened. -/
def Options.failure (o : Options) (error : InputError) : Report :=
  ⟨1, "", o.warnings ++ failureLines error⟩

/-- What the program says when it has served, and has written a text. -/
def Options.success (o : Options) (written : String) : Report :=
  ⟨0, written, o.warnings⟩

end CommandLine

end ForwardIntake
