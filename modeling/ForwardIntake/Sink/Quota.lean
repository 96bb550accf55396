import ForwardIntake.Sink.Basic

/-!
# Quotas

A sink that passes a number of batches on to another sink and refuses all that follow.
-/

namespace ForwardIntake

/-- A sink that takes so many batches and no more. -/
structure Quota (σ : Type) where
  inner : σ
  /-- The number of batches that are still passed on. -/
  left : Nat
  /-- Why the others are refused. -/
  reason : String

namespace Quota

variable {σ : Type} [Sink σ]

/-- Passes a batch on, or refuses it once the quota is used up. -/
def emit (q : Quota σ) (batch : Batch) : Emission × Quota σ :=
  match q.left with
  | 0 => (.refused (.rejected q.reason), q)
  | left + 1 =>
    match Sink.emit q.inner batch with
    | (.stalled, inner) => (.stalled, { q with inner })
    | (emission, inner) => (emission, { q with inner, left })

instance : Sink (Quota σ) := ⟨emit⟩

end Quota

end ForwardIntake
