import ForwardIntake.Json.Writer
import ForwardIntake.Sink.Basic

/-!
# JSON lines

Each record becomes one line of JSON: an object of the tag, the time and the fields.  The lines of a
batch are handed to the writer in one piece, so the lines of two batches never mix, and a write that
fails leaves nothing of its batch behind.  A batch without records is not written at all.
-/

namespace ForwardIntake

/-- A place that text is written to.  Each write is taken whole or fails. -/
structure Writer where
  /-- The writes that were taken, last first. -/
  taken : List Bytes
  /-- The number of writes, with those that failed. -/
  calls : Nat
  /-- The error with which a write fails, by the number of the write. -/
  faults : Nat → Option IoError

namespace Writer

/-- A writer that nothing was written to and that never fails. -/
def empty : Writer :=
  ⟨[], 0, fun _ => none⟩

/-- All that was written. -/
def text (w : Writer) : Bytes :=
  w.taken.reverse.flatten

/-- Writes bytes in one piece. -/
def write (w : Writer) (b : Bytes) : Option IoError × Writer :=
  match w.faults w.calls with
  | some error => (some error, { w with calls := w.calls + 1 })
  | none => (none, { w with taken := b :: w.taken, calls := w.calls + 1 })

end Writer

/-- A sink that writes every record as a line of JSON. -/
structure JsonLines where
  writer : Writer

namespace JsonLines

/-- The line of a record under a tag. -/
def line (tag : String) (record : Record) : Bytes :=
  Json.writeObject
    [Json.writeField "tag" (Json.writeText tag),
      Json.writeField "time" (Json.writeNat record.time.toNat),
      Json.writeField "record" (Json.write (.map record.fields))] ++ [0x0A]

/-- The lines of a batch, in the order of its records. -/
def lines (batch : Batch) : Bytes :=
  batch.flatMap fun set => set.records.flatMap (line set.tag)

/-- Writes the lines of a batch. -/
def emit (s : JsonLines) (batch : Batch) : Emission × JsonLines :=
  match lines batch with
  | [] => (.delivered, s)
  | text =>
    match s.writer.write text with
    | (none, writer) => (.delivered, ⟨writer⟩)
    | (some error, writer) => (.refused (.io error), ⟨writer⟩)

instance : Sink JsonLines := ⟨emit⟩

end JsonLines

end ForwardIntake
