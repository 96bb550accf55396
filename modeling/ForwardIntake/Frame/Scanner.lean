import ForwardIntake.Frame.Brackets
import ForwardIntake.Frame.Items
import ForwardIntake.Message.Codec

/-!
# Scanning for the end of a message

A scanner looks at a buffer that grows at its end, and goes on with its walk where the last scan
stopped, so a message that arrives in many pieces is walked over once.  Once it has found a frame it
stays with it until it is reset.
-/

namespace ForwardIntake

/-- The walk over the message at the front of a buffer. -/
inductive Walk where
  | items (w : Frame.ItemWalk)
  | brackets (w : Frame.BracketWalk)
  /-- The frame is found. -/
  | finished (frame : Frame)
  deriving DecidableEq, Repr

namespace Walk

/-- The walk over a message that begins at `pos` with the byte `first`. -/
def start (pos : Nat) (first : UInt8) : Walk :=
  match Codec.sniff first with
  | .messagePack => .items ⟨pos, 1⟩
  | .json => .brackets ⟨pos, 0, false, false⟩

/-- The walk to keep after a frame was found: it is over unless bytes were missing. -/
def keep (frame : Frame) (w : Walk) : Walk :=
  if frame.isIncomplete then w else .finished frame

/-- Goes on with a walk over a buffer. -/
def advance (b : Bytes) : Walk → Frame × Walk
  | .items w =>
    let (frame, w) := Frame.ItemWalk.advance b.length w.pos w.pending (b.drop w.pos)
    (frame, keep frame (.items w))
  | .brackets w =>
    let (frame, w) := w.advance b.length (b.drop w.pos)
    (frame, keep frame (.brackets w))
  | .finished frame => (frame, .finished frame)

end Walk

/-- Finds where messages end. -/
structure Scanner where
  /-- The walk in progress, once the message has begun. -/
  walk : Option Walk
  deriving DecidableEq, Repr, Inhabited

namespace Scanner

/-- A scanner that has seen nothing. -/
def fresh : Scanner := ⟨none⟩

/-- Scans a buffer, which must begin with the buffer of the last scan. -/
def scan (s : Scanner) (b : Bytes) : Frame × Scanner :=
  match s.walk with
  | some walk =>
    let (frame, walk) := walk.advance b
    (frame, ⟨some walk⟩)
  | none =>
    match b.dropWhile Bytes.isSeparator with
    | [] => (if b = [] then .incomplete 1 else .complete b.length, s)
    | first :: rest =>
      let (frame, walk) := (Walk.start (b.length - (rest.length + 1)) first).advance b
      (frame, ⟨some walk⟩)

/-- What a scanner that has seen nothing says about a buffer. -/
def frameOf (b : Bytes) : Frame :=
  (fresh.scan b).1

end Scanner

end ForwardIntake
