import Mathlib

/-!
# Runs

The parts of an intake are machines: a state and an action give the next state, or nothing where the
action cannot happen.  `Reaches act s t` says that some run, one action after the other, leads from
`s` to `t`.  Whatever holds at first and is kept by every action holds wherever a run leads
(`Reaches.invariant`), and a machine that is part of another one runs along with it
(`Reaches.part`).  Where it matters what was done on the way, a run is the list of its actions, and
what is said of both goes by induction on the last one (`run_induction`).

An event is a relation between the states before and after an action.  `Happened` says that some run
from one state to another has it on its way, and `Once` that no run has it twice.
-/

namespace ForwardIntake

variable {S A T B : Type} {act : S → A → Option S} {act' : T → B → Option T} {s t u : S} {a : A}

/-- Some run leads from one state to another. -/
def Reaches (act : S → A → Option S) : S → S → Prop :=
  Relation.ReflTransGen fun s t => ∃ a, act s a = some t

namespace Reaches

theorem refl (act : S → A → Option S) (s : S) : Reaches act s s :=
  Relation.ReflTransGen.refl

/-- A run may go one action further. -/
theorem tail (h : Reaches act s t) (hact : act t a = some u) : Reaches act s u :=
  Relation.ReflTransGen.tail h ⟨a, hact⟩

/-- A run may go on with another one. -/
theorem trans (h : Reaches act s t) (h' : Reaches act t u) : Reaches act s u :=
  Relation.ReflTransGen.trans h h'

/-- **Invariants.**  What every action keeps is kept by a run. -/
theorem invariant {P : S → Prop} (hstep : ∀ {s a t}, P s → act s a = some t → P t)
    (h : Reaches act s t) (hs : P s) : P t := by
  induction h with
  | refl => exact hs
  | tail _ hact ih =>
    obtain ⟨a, hact⟩ := hact
    exact hstep ih hact

/-- A list of actions that can happen one after the other is a run. -/
theorem of_actions (actions : List A) (h : actions.foldlM act s = some t) : Reaches act s t := by
  induction actions generalizing s with
  | nil =>
    obtain rfl : s = t := Option.some.inj h
    exact refl act s
  | cons a actions ih =>
    obtain ⟨mid, hact, hrest⟩ := Option.bind_eq_some_iff.1 (List.foldlM_cons.symm.trans h)
    exact trans (tail (refl act s) hact) (ih hrest)

/-- A part of a machine on which each action of the whole is one of its own actions, or none. -/
theorem part (f : S → T)
    (hpart : ∀ {s a t}, act s a = some t → f t = f s ∨ ∃ b, act' (f s) b = some (f t))
    (h : Reaches act s t) : Reaches act' (f s) (f t) := by
  induction h with
  | refl => exact refl act' (f s)
  | tail _ hact ih =>
    obtain ⟨a, hact⟩ := hact
    rcases hpart hact with hsame | ⟨b, hb⟩
    · rwa [hsame]
    · exact tail ih hb

end Reaches

/-- **Induction over the actions of a run**, the last one being the step. -/
theorem run_induction {P : (actions : List A) → (t : S) → actions.foldlM act s = some t → Prop}
    (start : P [] s rfl)
    (step : ∀ (actions : List A) (mid : S) (a : A) (t : S)
      (hmid : actions.foldlM act s = some mid), P actions mid hmid → act mid a = some t →
        ∀ h, P (actions ++ [a]) t h)
    {actions : List A} {t : S} (h : actions.foldlM act s = some t) : P actions t h := by
  induction actions using List.reverseRecOn generalizing t with
  | nil =>
    obtain rfl : s = t := Option.some.inj h
    exact start
  | append_singleton actions a ih =>
    have hbind := h
    rw [List.foldlM_append] at hbind
    obtain ⟨mid, hmid, hact⟩ := Option.bind_eq_some_iff.1 hbind
    simp only [List.foldlM_cons, List.foldlM_nil, bind_pure] at hact
    exact step actions mid a t hmid (ih hmid) hact h

/-! ### Events -/

variable {event : S → S → Prop}

/-- Some run from one state to another has the event on its way. -/
def Happened (act : S → A → Option S) (event : S → S → Prop) (s t : S) : Prop :=
  ∃ u a v, Reaches act s u ∧ act u a = some v ∧ event u v ∧ Reaches act v t

/-- No run has the event twice. -/
def Once (act : S → A → Option S) (event : S → S → Prop) (s : S) : Prop :=
  ∀ t a u v, Reaches act s t → act t a = some u → event t u → ¬ Happened act event u v

/-- An event that leaves a mark, which stays and in whose presence it does not happen. -/
theorem Once.of_mark {P : S → Prop}
    (hkeep : ∀ t a u, Reaches act s t → act t a = some u → P t → P u)
    (hevent : ∀ t a u, Reaches act s t → act t a = some u → event t u → ¬ P t ∧ P u) :
    Once act event s := by
  intro t a u v hreach hact hfirst hagain
  obtain ⟨t', a', u', hreach', hact', hsecond, -⟩ := hagain
  have hreach'' := hreach.tail hact
  have hmark : Reaches act s t' ∧ P t' := by
    refine hreach'.invariant (P := fun t' => Reaches act s t' ∧ P t') ?_
      ⟨hreach'', (hevent t a u hreach hact hfirst).2⟩
    rintro w b w' ⟨hw, hmark⟩ hact
    exact ⟨hw.tail hact, hkeep w b w' hw hact hmark⟩
  exact (hevent t' a' u' hmark.1 hact' hsecond).1 hmark.2

/-- What is so exactly from an event on tells that the event has happened. -/
theorem Reaches.iff_happened {P : S → Prop} (hreach : Reaches act s t) (hs : ¬ P s)
    (hstep : ∀ t a u, Reaches act s t → act t a = some u → (P u ↔ P t ∨ event t u)) :
    P t ↔ Happened act event s t := by
  refine ⟨fun ht => ?_, fun hhappened => ?_⟩
  · induction hreach with
    | refl => exact absurd ht hs
    | tail hbefore hact ih =>
      obtain ⟨a, hact⟩ := hact
      rcases (hstep _ a _ hbefore hact).1 ht with hmid | hevent
      · obtain ⟨u, b, v, hu, hb, huv, hv⟩ := ih hmid
        exact ⟨u, b, v, hu, hb, huv, hv.tail hact⟩
      · exact ⟨_, a, _, hbefore, hact, hevent, .refl act _⟩
  · obtain ⟨u, a, v, hu, hact, hevent, hv⟩ := hhappened
    have hlater : Reaches act s t ∧ P t := by
      refine hv.invariant (P := fun t => Reaches act s t ∧ P t) ?_
        ⟨hu.tail hact, (hstep u a v hu hact).2 (.inr hevent)⟩
      rintro t b t' ⟨ht, hP⟩ hb
      exact ⟨ht.tail hb, (hstep t b t' ht hb).2 (.inl hP)⟩
    exact hlater.2

end ForwardIntake
