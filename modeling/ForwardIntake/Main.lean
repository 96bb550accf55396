import ForwardIntake.CommandLine
import ForwardIntake.Sink.JsonLines

/-!
# The program

The program writes every record that it receives as a line of JSON to standard output.  Its one
client is whoever writes to standard input.
-/

namespace ForwardIntake

namespace Program

/-- The most bytes that are read at once. -/
def chunkSize : USize := 8192

/-- Writes a report, and returns its code. -/
def say (report : CommandLine.Report) : IO UInt32 := do
  (← IO.getStdout).putStr report.stdout
  for line in report.stderr do
    (← IO.getStderr).putStrLn line
  return UInt32.ofNat report.code

/-- Writes out what the sink of a hub was given, and empties it. -/
def emptySink (hub : Hub JsonLines) : IO (Hub JsonLines) := do
  let output ← IO.getStdout
  output.write ⟨hub.sink.writer.text.toArray⟩
  output.flush
  return { hub with sink := ⟨{ hub.sink.writer with taken := [] }⟩ }

/-- Serves the client until its session is over. -/
partial def serve (hub : Hub JsonLines) : IO Unit := do
  let hub ← emptySink (hub.run 0)
  if hub.isOver 0 then return ()
  let chunk ← (← IO.getStdin).read chunkSize
  serve (hub.feed 0 fun feed =>
    if chunk.isEmpty then feed.close else feed.push (.chunk chunk.toList))

/-- Does what the arguments ask for, and returns the code of the program. -/
def run (arguments : List String) : IO UInt32 := do
  match CommandLine.parse arguments with
  | .serve options =>
    match ListenAddress.parse options.bind with
    | .error error => say (options.failure error)
    | .ok address =>
      let code ← say (options.success "")
      let hub : Hub JsonLines := .new options.settings.maxMessageSize ⟨.empty⟩
      serve (hub.accept address.toText .silent)
      return code
  | invocation =>
    match invocation.report? with
    | some report => say report
    | none => return 0

end Program

end ForwardIntake

/-- Runs the program. -/
def main (arguments : List String) : IO UInt32 :=
  ForwardIntake.Program.run arguments
