import ForwardIntake.Proofs.Connection.Clients
import ForwardIntake.Proofs.Listen.Calls
import ForwardIntake.Sink.JsonLines

/-!
# The sweep leaves nobody behind

On its way out the dispatcher closes the listener and shuts down every client in the registry.  It
is also the only one to enter clients, so nobody comes after the sweep; and between the signal and
the sweep it takes at most one connection out of the queue (`Supervisor.sweep_leaves_nobody`).

Most of what happens in an input leaves the dispatcher aside (`Supervisor.Aside`); what is left are
the steps of the dispatcher itself.
-/

namespace ForwardIntake

namespace Dispatcher

/-- Whether the listener was closed. -/
def hasClosed : Dispatcher → Bool
  | .sweeping => true
  | .leaving => true
  | .ended => true
  | _ => false

/-- Whether the clients were shut down. -/
def hasSwept : Dispatcher → Bool
  | .leaving => true
  | .ended => true
  | _ => false

end Dispatcher

namespace Supervisor

open Hub (Quiet)

variable {σ : Type} {s s' : Supervisor σ}

/-! ### What leaves the dispatcher aside -/

/-- The dispatcher does nothing, though it may be born; no client is entered, and a signal that has
arrived stays. -/
structure Aside (s s' : Supervisor σ) : Prop where
  dispatcher : s'.dispatcher = s.dispatcher ∨
    s'.dispatcher = .waiting true ∧ ∃ k : Nat, s.starts[k]? = some .acceptorStarted
  closeRequested : s'.closeRequested = s.closeRequested
  served : s'.served = s.served
  hub : Quiet s.hub s'.hub
  signal : s.signal.arrived = true → s'.signal.arrived = true

/-- What leaves the dispatcher and its clients is aside. -/
private theorem Aside.of_eq (hdispatcher : s'.dispatcher = s.dispatcher)
    (hclose : s'.closeRequested = s.closeRequested) (hserved : s'.served = s.served)
    (hhub : Quiet s.hub s'.hub) (hsignal : s'.signal = s.signal) : Aside s s' :=
  ⟨.inl hdispatcher, hclose, hserved, hhub, fun h => hsignal ▸ h⟩

/-- Calls are aside. -/
private theorem Aside.of_call (h : Call s s') : Aside s s' := by
  cases h with
  | @spawnsDispatcher k call => exact ⟨.inr ⟨rfl, k, call⟩, rfl, rfl, .refl _, id⟩
  | takesSignal call signal =>
    refine ⟨.inl rfl, rfl, rfl, .refl _, fun harrived => ?_⟩
    rw [signal] at harrived
    cases harrived
  | sendsSignal => exact ⟨.inl rfl, rfl, rfl, .refl _, fun _ => rfl⟩
  | abandons =>
    refine ⟨.inl rfl, rfl, rfl, .refl _, fun harrived => ?_⟩
    simp only
    split
    · rfl
    · exact harrived
  | claims | startsAgain | spawnsAcceptor | hasStarted | asks | asksAgain | missesSignal | waits
  | hasWaited => exact .of_eq rfl rfl rfl (.refl _) rfl

private theorem Aside.of_feed (serial : Nat) (f : Feed → Feed) (s : Supervisor σ) :
    Aside s (s.feed serial f) := by
  refine .of_eq (by simp) (by simp) (by simp) ?_ (by simp)
  rw [feed]
  split
  · exact Hub.quiet_feed _ f s.hub
  · exact .refl _

variable [Sink σ]

/-- A change is aside or the dispatcher's own. -/
theorem Change.aside_or_dispatching (h : Change s s') : Aside s s' ∨ Dispatching s s' := by
  cases h with
  | calls call => exact .inl (.of_call call)
  | connects => exact .inl (.of_eq rfl rfl rfl (.refl _) rfl)
  | arrives serial arrival => exact .inl (.of_feed serial _ s)
  | closes serial => exact .inl (.of_feed serial _ s)
  | accepts accepting => cases accepting <;> exact .inl (.of_eq rfl rfl rfl (.refl _) rfl)
  | dispatches dispatching => exact .inr dispatching
  | advances session => exact .inl (.of_eq rfl rfl rfl (Hub.quiet_of_advance session) rfl)
  | aborts session => exact .inl (.of_eq rfl rfl rfl (Hub.quiet_of_abort session) rfl)

/-! ### The sweep -/

/-- What the dispatcher has done on its way out stays done. -/
structure Swept (s : Supervisor σ) : Prop where
  closed : s.dispatcher.hasClosed = true → s.closeRequested = true
  shutDown : s.dispatcher.hasSwept = true → ∀ handle ∈ s.hub.registry.live,
    s.hub.registry.isCancelled handle.token = true

/-- What was swept stays swept. -/
private theorem Swept.change (h : Swept s) (hchange : Change s s') : Swept s' := by
  rcases hchange.aside_or_dispatching with haside | hdispatching
  · rcases haside.dispatcher with hsame | ⟨hborn, -⟩
    · refine ⟨fun hclosed => ?_, fun hswept handle hmem => ?_⟩
      · rw [haside.closeRequested]
        exact h.closed (hsame ▸ hclosed)
      · have hcancelled := h.shutDown (hsame ▸ hswept) handle (haside.hub.live hmem)
        exact haside.hub.isCancelled hcancelled
    · refine ⟨fun hclosed => ?_, fun hswept => ?_⟩
      · rw [hborn] at hclosed
        cases hclosed
      · rw [hborn] at hswept
        cases hswept
  · cases hdispatching with
    | closes => exact ⟨fun _ => rfl, fun hswept => by cases hswept⟩
    | sweeps dispatcher =>
      refine ⟨fun _ => h.closed (by rw [dispatcher]; rfl), fun _ handle hmem => ?_⟩
      exact Registry.isCancelled_shutdownAll hmem
    | leaves dispatcher =>
      exact ⟨fun _ => h.closed (by rw [dispatcher]; rfl),
        fun _ => h.shutDown (by rw [dispatcher]; rfl)⟩
    | turns | serves | misses | stops =>
      exact ⟨fun hclosed => (by cases hclosed), fun hswept => (by cases hswept)⟩

/-! ### Behind the sweep -/

/-- Nobody comes behind the sweep. -/
private theorem Change.quiet_of_hasSwept (hstarts : StartsInOrder s)
    (hswept : s.dispatcher.hasSwept = true) (h : Change s s') :
    s'.dispatcher.hasSwept = true ∧ s'.served = s.served ∧ Quiet s.hub s'.hub := by
  rcases h.aside_or_dispatching with haside | hdispatching
  · rcases haside.dispatcher with hsame | ⟨-, k, call⟩
    · exact ⟨hsame ▸ hswept, haside.served, haside.hub⟩
    · -- the dispatcher is born once only
      rw [hstarts.unborn_of_call call (.inr rfl)] at hswept
      cases hswept
  · cases hdispatching with
    | leaves => exact ⟨rfl, rfl, .refl _⟩
    | turns dispatcher | serves dispatcher | misses dispatcher | closes dispatcher
    | sweeps dispatcher =>
      rw [dispatcher] at hswept
      cases hswept
    | stops dispatcher =>
      rcases dispatcher with ⟨accepting, dispatcher⟩ | ⟨dispatcher, -⟩
      · rw [dispatcher] at hswept
        cases hswept
      · rw [dispatcher] at hswept
        cases hswept

/-! ### Behind the signal -/

/-- How many sessions there can be once the signal has arrived. -/
def due (s : Supervisor σ) : Nat :=
  s.hub.sessions.length + if s.dispatcher = .turning then 1 else 0

/-- Behind the signal nobody becomes due. -/
private theorem Change.due_le (hsignal : s.signal.arrived = true) (h : Change s s') :
    s'.signal.arrived = true ∧ s'.due ≤ s.due := by
  rcases h.aside_or_dispatching with haside | hdispatching
  · refine ⟨haside.signal hsignal, ?_⟩
    rw [due, due, haside.hub.sessions]
    rcases haside.dispatcher with hsame | ⟨hborn, -⟩
    · rw [hsame]
    · rw [hborn]
      exact Nat.le_add_right _ _
  · cases hdispatching with
    | turns dispatcher signal =>
      rw [signal] at hsignal
      cases hsignal
    | serves dispatcher =>
      -- it had looked for the signal before; now it has to look again
      refine ⟨hsignal, ?_⟩
      rw [due, due, dispatcher]
      simp
    | misses | stops | closes | leaves => exact ⟨hsignal, Nat.le_add_right _ _⟩
    | sweeps => exact ⟨hsignal, Nat.le_add_right _ _⟩

/-! ### Before the dispatcher -/

/-- There are no sessions before there is a dispatcher. -/
def Unserved (s : Supervisor σ) : Prop :=
  s.dispatcher = .unborn → s.hub.sessions = []

/-- Nobody is served before the dispatcher starts. -/
private theorem Unserved.change (h : Unserved s) (hchange : Change s s') : Unserved s' := by
  intro hunborn
  rcases hchange.aside_or_dispatching with haside | hdispatching
  · rcases haside.dispatcher with hsame | ⟨hborn, -⟩
    · have hlength := haside.hub.sessions
      rw [h (hsame ▸ hunborn)] at hlength
      exact List.length_eq_zero_iff.1 hlength
    · rw [hborn] at hunborn
      cases hunborn
  · cases hdispatching with
    | turns | serves | misses | stops | closes | sweeps => cases hunborn
    | leaves => cases hunborn

/-! ### Runs -/

variable {capacity limit : Nat} {sink : σ}

/-- What was swept stays swept in every run. -/
private theorem swept_of_reaches (hreach : Reaches act (.new capacity limit sink) s) :
    Swept s ∧ Unserved s := by
  refine hreach.invariant (P := fun s : Supervisor σ => Swept s ∧ Unserved s) ?_ ?_
  · rintro s a s' ⟨hswept, hunserved⟩ hact
    exact ⟨hswept.change (.of_act hact), hunserved.change (.of_act hact)⟩
  · exact ⟨⟨fun hclosed => (by cases hclosed), fun hswept => (by cases hswept)⟩, fun _ => rfl⟩

private theorem quiet_of_reaches (hstarts : StartsInOrder s) (hswept : s.dispatcher.hasSwept = true)
    (hreach : Reaches act s s') :
    s'.dispatcher.hasSwept = true ∧ s'.served = s.served ∧ Quiet s.hub s'.hub := by
  have hall : StartsInOrder s' ∧ s'.dispatcher.hasSwept = true ∧ s'.served = s.served ∧
      Quiet s.hub s'.hub := by
    refine hreach.invariant (P := fun s' : Supervisor σ => StartsInOrder s' ∧
      s'.dispatcher.hasSwept = true ∧ s'.served = s.served ∧ Quiet s.hub s'.hub) ?_ ?_
    · rintro t a t' ⟨hstarts, hswept, hserved, hquiet⟩ hact
      obtain ⟨hswept', hserved', hquiet'⟩ := (Change.of_act hact).quiet_of_hasSwept hstarts hswept
      exact ⟨hstarts.change (.of_act hact), hswept', hserved'.trans hserved, hquiet.trans hquiet'⟩
    · exact ⟨hstarts, hswept, rfl, .refl _⟩
  exact hall.2

private theorem due_le_of_reaches (hsignal : s.signal.arrived = true) (hreach : Reaches act s s') :
    s'.due ≤ s.due := by
  have hall : s'.signal.arrived = true ∧ s'.due ≤ s.due := by
    refine hreach.invariant
      (P := fun s' : Supervisor σ => s'.signal.arrived = true ∧ s'.due ≤ s.due) ?_ ?_
    · rintro t a t' ⟨hsignal, hdue⟩ hact
      obtain ⟨hsignal', hdue'⟩ := (Change.of_act hact).due_le hsignal
      exact ⟨hsignal', hdue'.trans hdue⟩
    · exact ⟨hsignal, le_refl _⟩
  exact hall.2

/-- Once the signal has arrived, one more session can be made, and none if there is no dispatcher
yet. -/
private theorem sessions_of_arrived (hunserved : Unserved s) (hsignal : s.signal.arrived = true)
    (hreach : Reaches act s s') :
    s'.hub.sessions.length ≤ s.hub.sessions.length + 1 ∧
      (s.dispatcher = .unborn → s'.hub.sessions = []) := by
  have hdue := due_le_of_reaches hsignal hreach
  rw [due, due] at hdue
  refine ⟨?_, fun hunborn => List.length_eq_zero_iff.1 ?_⟩
  · split at hdue <;> split at hdue <;> omega
  · rw [hunserved hunborn, hunborn] at hdue
    simp only [List.length_nil, reduceCtorEq, if_false] at hdue
    omega

/-- **The sweep leaves nobody behind.**

* Once the clients were shut down, the listener is told to close, the token of every client in the
  registry is cancelled, and so is that of every session that is not over, as long as the ids of
  clients are not used up; and from then on no connection gets a session and no client is entered.
* Once the signal has arrived, at most one more connection gets a session, and none if there is no
  dispatcher yet.
* Once a call to stop has returned that it sent the signal, the signal was sent.  If there was no
  call to start before, no connection ever gets a session.
* Once all calls to stop have returned, one of them has returned that it sent the signal. -/
theorem sweep_leaves_nobody (hreach : Reaches act (.new capacity limit sink) s) :
    (s.dispatcher.hasSwept = true →
      s.closeRequested = true ∧
      (∀ handle ∈ s.hub.registry.live, s.hub.registry.isCancelled handle.token = true) ∧
      (s.hub.sessions.length ≤ 2 ^ 64 → ∀ t ∈ s.hub.sessions,
        t.phase.isOver = true ∨ s.hub.registry.isCancelled t.token = true) ∧
      ∀ s', Reaches act s s' →
        s'.dispatcher.hasSwept = true ∧ s'.served = s.served ∧
          s'.hub.sessions.length = s.hub.sessions.length ∧
          s'.hub.registry.live ⊆ s.hub.registry.live) ∧
    (s.signal.arrived = true → ∀ s', Reaches act s s' →
      s'.hub.sessions.length ≤ s.hub.sessions.length + 1 ∧
        (s.dispatcher = .unborn → s'.hub.sessions = [])) ∧
    (.returned true ∈ s.stops → s.signal = .sent ∧
      (s.starts = [] → ∀ s', Reaches act s s' → s'.hub.sessions = [])) ∧
    (s.stops ≠ [] → (∀ call ∈ s.stops, ∃ sent, call = .returned sent) →
      .returned true ∈ s.stops) := by
  obtain ⟨hstarts, hstops⟩ := inOrder_of_reaches hreach
  obtain ⟨hsweep, hunserved⟩ := swept_of_reaches hreach
  refine ⟨fun hswept =>
      ⟨?_, hsweep.shutDown hswept, fun hlength t hmem => ?_, fun s' hreach' => ?_⟩,
    fun hsignal s' hreach' => sessions_of_arrived hunserved hsignal hreach',
    fun hmem => ⟨hstops.signal_of_returned hmem, fun hnil s' hreach' => ?_⟩,
    hstops.returned_of_all⟩
  · refine hsweep.closed ?_
    cases hdispatcher : s.dispatcher with
    | leaving | ended => rfl
    | unborn | waiting | turning | closing | sweeping =>
      rw [hdispatcher] at hswept
      cases hswept
  · by_cases hover : t.phase.isOver = true
    · exact .inl hover
    · obtain ⟨i, hat⟩ := List.getElem?_of_mem hmem
      have hlisted := Hub.listed_of_reaches (hub_of_reaches hreach)
      obtain ⟨handle, hlive, -, htoken⟩ := hlisted hlength i t hat (Bool.not_eq_true _ ▸ hover)
      exact .inr (htoken ▸ hsweep.shutDown hswept handle hlive)
  · obtain ⟨hswept', hserved, hquiet⟩ := quiet_of_reaches hstarts hswept hreach'
    exact ⟨hswept', hserved, hquiet.sessions, hquiet.live⟩
  · have hsignal : s.signal.arrived = true := by
      rw [hstops.signal_of_returned hmem]
      rfl
    exact (sessions_of_arrived hunserved hsignal hreach').2 (hstarts.unborn_of_nil hnil)

/-- In the first run the dispatcher has looked for the signal before it is sent, and takes the one
connection out of the queue after that; the new client is shut down with the rest.  In the second
run the input is stopped before it is started. -/
theorem sweep_leaves_nobody_late :
    (∃ s s' : Supervisor JsonLines, Reaches act (.new 1 8 ⟨.empty⟩) s ∧ Reaches act s s' ∧
      s.signal = .sent ∧ s.hub.sessions.length = 0 ∧ s'.hub.sessions.length = 1 ∧
      s'.dispatcher = .leaving ∧ s'.closeRequested = true ∧
      (∀ t ∈ s'.hub.sessions,
        t.phase.isOver = true ∨ s'.hub.registry.isCancelled t.token = true) ∧
      ∀ s'', Reaches act s' s'' → s''.hub.sessions.length = 1) ∧
    ∃ s : Supervisor JsonLines, Reaches act (.new 1 8 ⟨.empty⟩) s ∧ s.starts = [] ∧
      s.stops = [.returned true] ∧ ∀ s', Reaches act s s' → s'.hub.sessions = [] := by
  refine ⟨?_, ?_⟩
  · let before : List Action := [.start, .stepStart 0, .stepStart 0, .stepStart 0, .connect "a",
      .stepAcceptor, .stepAcceptor, .stepAcceptor, .stepAcceptor, .stepDispatcher, .stop,
      .stepStop 0, .stepStop 0]
    let after : List Action := .replicate 4 .stepDispatcher
    obtain ⟨s, hbefore, hsignal, hnone, s', hafter, hone, hleaving⟩ :
        ∃ s : Supervisor JsonLines, before.foldlM act (.new 1 8 ⟨.empty⟩) = some s ∧
          s.signal = .sent ∧ s.hub.sessions.length = 0 ∧
          ∃ s', after.foldlM act s = some s' ∧ s'.hub.sessions.length = 1 ∧
            s'.dispatcher = .leaving :=
      ⟨_, by cbv, rfl, rfl, _, by cbv, rfl, rfl⟩
    have hreach : Reaches act (.new 1 8 (⟨.empty⟩ : JsonLines)) s := .of_actions before hbefore
    have hreach' : Reaches act s s' := .of_actions after hafter
    have hswept : s'.dispatcher.hasSwept = true := by
      rw [hleaving]
      rfl
    obtain ⟨hclosed, -, hcovered, hlater⟩ :=
      (sweep_leaves_nobody (hreach.trans hreach')).1 hswept
    refine ⟨s, s', hreach, hreach', hsignal, hnone, hone, hleaving, hclosed, ?_, ?_⟩
    · exact hcovered (by rw [hone]; decide)
    · intro s'' hreach''
      exact (hlater s'' hreach'').2.2.1.trans hone
  · obtain ⟨s, hactions, hstarts, hstops⟩ :
        ∃ s : Supervisor JsonLines,
          [Action.stop, .stepStop 0, .stepStop 0].foldlM act (.new 1 8 ⟨.empty⟩) = some s ∧
          s.starts = [] ∧ s.stops = [.returned true] :=
      ⟨_, by cbv, rfl, rfl⟩
    have hreach : Reaches act (.new 1 8 (⟨.empty⟩ : JsonLines)) s := .of_actions _ hactions
    have hmem : .returned true ∈ s.stops := by
      rw [hstops]
      exact List.mem_singleton_self _
    exact ⟨s, hreach, hstarts, hstops, ((sweep_leaves_nobody hreach).2.2.1 hmem).2 hstarts⟩

end Supervisor

end ForwardIntake
