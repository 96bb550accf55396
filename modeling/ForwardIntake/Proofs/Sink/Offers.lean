import ForwardIntake.Sink.JsonLines

/-!
# Offering batches to a sink

Batches are offered to a sink one after the other (`Sink.emitAll`).  Some of them may be refused, so
a sink has delivered a sublist of them (`Sink.delivered`), unless it takes every batch
(`Sink.Accepts`), as a sink of JSON lines does if its writer never fails.
-/

namespace ForwardIntake

namespace Sink

variable {σ : Type} [Sink σ]

/-- The sink after it was offered batches one after the other. -/
def emitAll (sink : σ) (batches : List Batch) : σ :=
  batches.foldl (fun sink batch => (emit sink batch).2) sink

/-- The batches that are delivered, of those that are offered one after the other. -/
def delivered : σ → List Batch → List Batch
  | _, [] => []
  | sink, batch :: rest =>
    if (emit sink batch).1 = .delivered then batch :: delivered (emit sink batch).2 rest
    else delivered (emit sink batch).2 rest

/-- The sink takes every batch that it is offered from now on. -/
def Accepts (sink : σ) : Prop :=
  ∀ (before : List Batch) (batch : Batch), (emit (emitAll sink before) batch).1 = .delivered

/-- A sink that takes everything delivers each batch. -/
theorem Accepts.emit_eq {sink : σ} (h : Accepts sink) (batch : Batch) :
    Sink.emit sink batch = (.delivered, (Sink.emit sink batch).2) :=
  Prod.ext (h [] batch) rfl

theorem Accepts.emit {sink : σ} (h : Accepts sink) (batch : Batch) :
    Accepts (emit sink batch).2 :=
  fun before => h (batch :: before)

end Sink

namespace JsonLines

variable {lines : JsonLines}

/-- A writer without faults delivers each batch and stays without faults. -/
private theorem emit_of_faultless (h : ∀ n, lines.writer.faults n = none) (batch : Batch) :
    (lines.emit batch).1 = .delivered ∧ ∀ n, (lines.emit batch).2.writer.faults n = none := by
  rw [emit]
  split
  · exact ⟨rfl, h⟩
  · rw [Writer.write, h]
    exact ⟨rfl, h⟩

/-- A writer that never fails takes everything. -/
theorem accepts_of_faultless (h : ∀ n, lines.writer.faults n = none) : Sink.Accepts lines := by
  intro before batch
  induction before generalizing lines with
  | nil => exact (emit_of_faultless h batch).1
  | cons first before ih => exact ih (emit_of_faultless h first).2

end JsonLines

end ForwardIntake
