import ForwardIntake.Proofs.Connection.Clients
import ForwardIntake.Proofs.Listen.Calls
import ForwardIntake.Sink.JsonLines

/-!
# Waiting is a barrier

A call to wait comes to an end when no task is running.  That says little about an input on which
nothing was started yet; but behind a call to start there is an acceptor and a dispatcher
(`Supervisor.Begun`), so when nothing is running both have ended.  Then the listener is closed, the
sessions are over and have taken their entries out of the registry (`Supervisor.Stopped`), and
nobody is left who could begin anything: an input that has stopped stays so
(`Supervisor.Stopped.change`).

Sessions are made by the dispatcher alone, so as long as one can still be made, the dispatcher is
running and no call to wait comes to an end (`Supervisor.wait_is_barrier`).
-/

namespace ForwardIntake

namespace Acceptor

variable {acceptor : Acceptor}

/-- An acceptor that does not run has not started or has ended. -/
private theorem eq_of_not_isRunning (h : acceptor.isRunning = false) :
    acceptor = .unborn ∨ acceptor = .ended := by
  cases acceptor with
  | unborn => exact .inl rfl
  | ended => exact .inr rfl
  | polling | accepting | holding | sending => cases h

end Acceptor

private theorem Dispatcher.eq_of_not_isRunning {dispatcher : Dispatcher}
    (h : dispatcher.isRunning = false) : dispatcher = .unborn ∨ dispatcher = .ended := by
  cases dispatcher with
  | unborn => exact .inl rfl
  | ended => exact .inr rfl
  | waiting | turning | closing | sweeping | leaving => cases h

namespace Supervisor

variable {σ : Type} {s s' s'' : Supervisor σ}

/-! ### What is there once the input was started -/

/-- The first call to start takes the listener, and acceptor and dispatcher are there as soon as it
has come past them.  With the acceptor the listener goes. -/
structure Begun (s : Supervisor σ) : Prop where
  first : ∀ call rest, s.starts = call :: rest → call ≠ .returned false
  untouched : s.starts = [] →
    s.acceptor = .unborn ∧ (s.abandoned = false → s.listener = .held)
  acceptor : s.acceptor = .unborn → ∀ call ∈ s.starts, call = .claimed ∨ call = .returned false
  dispatcher : s.dispatcher = .unborn → ∀ call ∈ s.starts,
    call = .claimed ∨ call = .acceptorStarted ∨ call = .returned false
  closed : s.acceptor = .ended → s.listener = .closed

/-- The calls to start, and whether acceptor and dispatcher are there, may stay as they are. -/
private theorem Begun.keep (h : Begun s) (hstarts : s'.starts = s.starts)
    (hunborn : s'.acceptor = .unborn ↔ s.acceptor = .unborn)
    (hended : s'.acceptor = .ended ↔ s.acceptor = .ended)
    (hdispatcher : s'.dispatcher = .unborn → s.dispatcher = .unborn)
    (hlistener : s'.listener = s.listener) (habandoned : s'.abandoned = s.abandoned) :
    Begun s' := by
  refine ⟨?_, ?_, ?_, ?_, ?_⟩
  · rw [hstarts]
    exact h.first
  · rw [hstarts, hunborn, hlistener, habandoned]
    exact h.untouched
  · rw [hstarts, hunborn]
    exact h.acceptor
  · rw [hstarts]
    exact fun hborn => h.dispatcher (hdispatcher hborn)
  · rw [hended, hlistener]
    exact h.closed

/-- A step of the call that has taken the listener. -/
private theorem Begun.set (hstarts : StartsInOrder s) {k : Nat} {call call' : StartCall}
    (hat : s.starts[k]? = some call) (hne : call ≠ .returned false) (hne' : call' ≠ .returned false)
    (hset : s'.starts = s.starts.set k call') (hacceptor : s'.acceptor ≠ .unborn)
    (hdispatcher : s'.dispatcher = .unborn → call' = .acceptorStarted)
    (hclosed : s'.acceptor = .ended → s'.listener = .closed) : Begun s' := by
  obtain ⟨rest, hrest, hcons⟩ := hstarts.later.exists_set hat hne
  have hlater := hstarts.later
  rw [hrest] at hlater
  rw [hcons] at hset
  refine ⟨?_, ?_, fun hunborn => absurd hunborn hacceptor, ?_, hclosed⟩
  · intro first rest' hfirst
    rw [hset] at hfirst
    cases hfirst
    exact hne'
  · intro hnil
    rw [hset] at hnil
    cases hnil
  · intro hunborn other hmem
    rw [hset] at hmem
    rcases List.mem_cons.1 hmem with rfl | hmem
    · exact .inr (.inl (hdispatcher hunborn))
    · exact .inr (.inr (hlater other hmem))

/-- The acceptor is there once the call to start has come past it. -/
theorem Begun.acceptor_ne_unborn (h : Begun s) {k : Nat} {call : StartCall}
    (hat : s.starts[k]? = some call) (hne : call ≠ .claimed) (hne' : call ≠ .returned false) :
    s.acceptor ≠ .unborn := by
  intro hunborn
  rcases h.acceptor hunborn call (List.mem_of_getElem? hat) with hcall | hcall
  · exact hne hcall
  · exact hne' hcall

/-- Calls begin what they claim. -/
private theorem Begun.call (h : Begun s) (hstarts : StartsInOrder s) (hcall : Call s s') :
    Begun s' := by
  cases hcall with
  | claims present listener =>
    have hnil : s.starts = [] := by
      by_contra hne
      exact hstarts.claimed hne listener
    have hunborn := (h.untouched hnil).1
    refine ⟨?_, ?_, ?_, ?_, ?_⟩
    · intro first rest hfirst
      simp only [hnil, List.nil_append, List.cons.injEq] at hfirst
      rw [← hfirst.1]
      decide
    · intro hnil'
      simp only [hnil, List.nil_append, reduceCtorEq] at hnil'
    · intro _ call hmem
      simp only [hnil, List.nil_append, List.mem_singleton] at hmem
      exact .inl hmem
    · intro _ call hmem
      simp only [hnil, List.nil_append, List.mem_singleton] at hmem
      exact .inl hmem
    · intro hended
      rw [hunborn] at hended
      cases hended
  | startsAgain present listener =>
    -- there is a call already, for nobody else takes the listener of an input in use
    obtain ⟨first, rest, hrest⟩ := List.exists_cons_of_ne_nil fun hnil =>
      listener ((h.untouched hnil).2 present)
    refine ⟨?_, ?_, ?_, ?_, h.closed⟩
    · intro first' rest' hfirst
      simp only [hrest, List.cons_append, List.cons.injEq] at hfirst
      rw [← hfirst.1]
      exact h.first first rest hrest
    · intro hnil
      simp only [List.append_eq_nil_iff, List.cons_ne_self, and_false] at hnil
    · intro hunborn call hmem
      rcases List.mem_append.1 hmem with hmem | hmem
      · exact h.acceptor hunborn call hmem
      · exact .inr (List.mem_singleton.1 hmem)
    · intro hunborn call hmem
      rcases List.mem_append.1 hmem with hmem | hmem
      · exact h.dispatcher hunborn call hmem
      · exact .inr (.inr (List.mem_singleton.1 hmem))
  | spawnsAcceptor call =>
    exact .set hstarts call (by decide) (by decide) rfl (fun hunborn => by cases hunborn)
      (fun _ => rfl) (fun hended => by cases hended)
  | spawnsDispatcher call =>
    have hborn := h.acceptor_ne_unborn call (by decide) (by decide)
    exact .set hstarts call (by decide) (by decide) rfl hborn (fun hunborn => by cases hunborn)
      h.closed
  | hasStarted call =>
    have hborn := h.acceptor_ne_unborn call (by decide) (by decide)
    refine .set hstarts call (by decide) (by decide) rfl hborn (fun hunborn => ?_) h.closed
    have hmissing := h.dispatcher hunborn _ (List.mem_of_getElem? call)
    simp only [reduceCtorEq, or_self] at hmissing
  | abandons =>
    refine ⟨h.first, fun hnil => ⟨(h.untouched hnil).1, fun hpresent => (by cases hpresent)⟩,
      h.acceptor, h.dispatcher, fun hended => ?_⟩
    simp only [h.closed hended, ite_self]
  | asks | asksAgain | takesSignal | missesSignal | sendsSignal | waits | hasWaited =>
    exact ⟨h.first, h.untouched, h.acceptor, h.dispatcher, h.closed⟩

/-- Only an acceptor that was started accepts. -/
theorem Accepting.ne_unborn (h : Accepting s s') : s.acceptor ≠ .unborn := by
  intro hunborn
  cases h with
  | goesOn acceptor | takes acceptor | offers acceptor | passesOn acceptor =>
    rw [hunborn] at acceptor
    cases acceptor
  | ends running =>
    rw [hunborn] at running
    cases running

/-- What the acceptor does keeps what has begun. -/
private theorem Begun.accepting (h : Begun s) (haccepting : Accepting s s') : Begun s' := by
  have hborn := haccepting.ne_unborn
  have hstarts : s.starts ≠ [] := fun hnil => hborn (h.untouched hnil).1
  cases haccepting with
  | goesOn | takes | offers | passesOn =>
    exact ⟨h.first, fun hnil => absurd hnil hstarts, fun hunborn => (by cases hunborn),
      h.dispatcher, fun hended => (by cases hended)⟩
  | ends =>
    exact ⟨h.first, fun hnil => absurd hnil hstarts, fun hunborn => (by cases hunborn),
      h.dispatcher, fun _ => rfl⟩

private theorem Begun.feed (h : Begun s) (serial : Nat) (f : Feed → Feed) :
    Begun (s.feed serial f) := by
  exact h.keep (by simp) (by simp) (by simp) (by simp) (by simp) (by simp)

/-- What has begun stays so, whatever happens. -/
private theorem Begun.change [Sink σ] (h : Begun s) (hstarts : StartsInOrder s)
    (hchange : Change s s') :
    Begun s' := by
  cases hchange with
  | calls call => exact h.call hstarts call
  | connects | advances | aborts => exact h.keep rfl Iff.rfl Iff.rfl id rfl rfl
  | arrives serial | closes serial => exact h.feed serial _
  | accepts accepting => exact h.accepting accepting
  | dispatches dispatching =>
    cases dispatching with
    | turns | serves | misses | stops | closes | sweeps | leaves =>
      exact h.keep rfl Iff.rfl Iff.rfl (fun hunborn => by cases hunborn) rfl rfl

/-- Once all calls to start have returned, the first of them has started the input. -/
private theorem Begun.returned_of_all (h : Begun s) (hne : s.starts ≠ [])
    (hall : ∀ call ∈ s.starts, ∃ first, call = .returned first) : .returned true ∈ s.starts := by
  obtain ⟨call, rest, hrest⟩ := List.exists_cons_of_ne_nil hne
  obtain ⟨first, rfl⟩ := hall call (hrest ▸ List.mem_cons_self)
  cases first with
  | false => exact absurd rfl (h.first _ rest hrest)
  | true =>
    rw [hrest]
    exact List.mem_cons_self

/-- A call to start that has returned stays where it is. -/
private theorem Change.mem_starts [Sink σ] (hchange : Change s s') {first : Bool}
    (hmem : .returned first ∈ s.starts) : .returned first ∈ s'.starts := by
  have hset {k : Nat} {call call' : StartCall} (hat : s.starts[k]? = some call)
      (hne : call ≠ .returned first) : .returned first ∈ s.starts.set k call' := by
    obtain ⟨j, hj⟩ := List.getElem?_of_mem hmem
    have hjk : k ≠ j := by
      rintro rfl
      exact hne (Option.some.inj (hat.symm.trans hj))
    exact List.mem_of_getElem? ((List.getElem?_set_ne hjk).trans hj)
  cases hchange with
  | calls call =>
    cases call with
    | claims | startsAgain => exact List.mem_append_left _ hmem
    | spawnsAcceptor call | spawnsDispatcher call | hasStarted call => exact hset call (by simp)
    | asks | asksAgain | takesSignal | missesSignal | sendsSignal | waits | hasWaited | abandons =>
      exact hmem
  | connects | advances | aborts => exact hmem
  | arrives | closes =>
    simpa using hmem
  | accepts accepting => cases accepting <;> exact hmem
  | dispatches dispatching => cases dispatching <;> exact hmem

/-! ### Inputs that have stopped -/

/-- Everything has ended, the listener is closed and nobody is in the registry. -/
structure Stopped (s : Supervisor σ) : Prop where
  acceptor : s.acceptor = .ended
  dispatcher : s.dispatcher = .ended
  listener : s.listener = .closed
  sessions : ∀ t ∈ s.hub.sessions, t.phase.isOver = true
  registry : s.hub.registry.size = 0

/-- When all has stopped, the tracker is idle. -/
private theorem Stopped.isIdle (h : Stopped s) : s.isIdle = true := by
  simpa [Supervisor.isIdle, h.acceptor, h.dispatcher] using h.sessions

/-- No session was made, no client entered, no batch emitted and nothing counted. -/
structure Rested (s s' : Supervisor σ) : Prop where
  served : s'.served = s.served
  sessions : s'.hub.sessions.length = s.hub.sessions.length
  registry : s'.hub.registry = s.hub.registry
  sink : s'.hub.sink = s.hub.sink
  stats : s'.hub.stats = s.hub.stats

/-- What leaves the hub leaves it at rest. -/
private theorem Rested.of_hub_eq (hhub : s'.hub = s.hub) (hserved : s'.served = s.served) :
    Rested s s' :=
  ⟨hserved, by rw [hhub], by rw [hhub], by rw [hhub], by rw [hhub]⟩

private theorem Rested.trans (h : Rested s s') (h' : Rested s' s'') : Rested s s'' :=
  ⟨h'.served.trans h.served, h'.sessions.trans h.sessions, h'.registry.trans h.registry,
    h'.sink.trans h.sink, h'.stats.trans h.stats⟩

/-- Input from a client leaves what is over at rest. -/
private theorem rested_feed (serial : Nat) (f : Feed → Feed) (s : Supervisor σ) :
    Rested s (s.feed serial f) := by
  rw [feed]
  split
  · exact ⟨rfl, List.length_modify _ _ _, rfl, rfl, rfl⟩
  · exact .of_hub_eq rfl rfl

variable [Sink σ]

/-- When all has stopped, no session goes on. -/
private theorem Stopped.advance_eq_none (h : Stopped s) (i : Nat) : s.hub.advance i = none := by
  by_contra hne
  obtain ⟨hub, hadvance⟩ := Option.ne_none_iff_exists'.1 hne
  obtain ⟨t, hat, hadvance⟩ := Option.bind_eq_some_iff.1 hadvance
  obtain ⟨⟨t', sink, stats⟩, hstep, -⟩ := Option.map_eq_some_iff.1 hadvance
  have hgoes := (Session.Step.of_step hstep).isOver_eq_false
  rw [h.sessions t (List.mem_of_getElem? hat)] at hgoes
  cases hgoes

omit [Sink σ] in
private theorem Stopped.abort_eq_none (h : Stopped s) (i : Nat) : s.hub.abort i = none := by
  rw [Hub.abort, Option.bind_eq_none_iff]
  intro t hat
  have hover := h.sessions t (List.mem_of_getElem? hat)
  split
  · rename_i phase
    rw [phase] at hover
    cases hover
  · rfl

private theorem Stopped.feed (h : Stopped s) (serial : Nat) (f : Feed → Feed) :
    Stopped (s.feed serial f) := by
  rw [Supervisor.feed]
  split
  · refine ⟨h.acceptor, h.dispatcher, h.listener, fun t hmem => ?_, h.registry⟩
    obtain ⟨i, hat⟩ := List.getElem?_of_mem hmem
    have hfeeds : Hub.Change s.hub (s.hub.feed (s.served.idxOf serial) f) := .feeds _ f
    rcases hfeeds.of_session hat with ⟨u, hu, hnext⟩ | ⟨peer, feed, hi, -⟩
    · exact hnext.isOver (h.sessions u (List.mem_of_getElem? hu))
    · have hlt := (List.getElem?_eq_some_iff.1 hat).1
      simp only [Hub.feed, List.length_modify, hi, lt_self_iff_false] at hlt
  · exact ⟨by simpa using h.acceptor, h.dispatcher, h.listener, h.sessions, h.registry⟩

/-- What has stopped stays so, whoever calls and whatever still arrives. -/
private theorem Stopped.change (h : Stopped s) (hstarts : StartsInOrder s) (hchange : Change s s') :
    Stopped s' ∧ Rested s s' := by
  cases hchange with
  | calls call =>
    refine ⟨?_, .of_hub_eq call.hub_eq (by cases call <;> rfl)⟩
    cases call with
    | claims present listener =>
      rw [h.listener] at listener
      cases listener
    | spawnsAcceptor call =>
      have hunborn := hstarts.unborn_of_call call (.inl rfl)
      rw [h.dispatcher] at hunborn
      cases hunborn
    | spawnsDispatcher call =>
      have hunborn := hstarts.unborn_of_call call (.inr rfl)
      rw [h.dispatcher] at hunborn
      cases hunborn
    | abandons =>
      refine ⟨h.acceptor, h.dispatcher, ?_, h.sessions, h.registry⟩
      simp only [h.listener, ite_self]
    | startsAgain | hasStarted | asks | asksAgain | takesSignal | missesSignal | sendsSignal | waits
    | hasWaited => exact ⟨h.acceptor, h.dispatcher, h.listener, h.sessions, h.registry⟩
  | connects peer listener => exact absurd h.listener listener
  | arrives serial | closes serial => exact ⟨h.feed serial _, rested_feed serial _ s⟩
  | accepts accepting =>
    cases accepting with
    | goesOn acceptor | takes acceptor | offers acceptor | passesOn acceptor =>
      rw [h.acceptor] at acceptor
      cases acceptor
    | ends running =>
      rw [h.acceptor] at running
      cases running
  | dispatches dispatching =>
    cases dispatching with
    | turns dispatcher | serves dispatcher | misses dispatcher | closes dispatcher
    | sweeps dispatcher | leaves dispatcher =>
      rw [h.dispatcher] at dispatcher
      cases dispatcher
    | stops dispatcher =>
      simp only [h.dispatcher, reduceCtorEq, exists_false, false_and, or_self] at dispatcher
  | advances session =>
    rw [h.advance_eq_none] at session
    cases session
  | aborts session =>
    rw [h.abort_eq_none] at session
    cases session

omit [Sink σ] in
/-- An input that was started and on which nothing is running has stopped. -/
private theorem stopped_of_isIdle (hbegun : Begun s) (howned : s.hub.Owned)
    (hstarted : .returned true ∈ s.starts) (hidle : s.isIdle = true) : Stopped s := by
  simp only [isIdle, Bool.and_eq_true, Bool.not_eq_true', List.all_eq_true] at hidle
  obtain ⟨⟨hacceptor, hdispatcher⟩, hsessions⟩ := hidle
  have hended : s.acceptor = .ended := by
    rcases Acceptor.eq_of_not_isRunning hacceptor with hunborn | hended
    · have hcall := hbegun.acceptor hunborn _ hstarted
      simp only [reduceCtorEq, StartCall.returned.injEq, Bool.true_eq_false, or_self] at hcall
    · exact hended
  have hended' : s.dispatcher = .ended := by
    rcases Dispatcher.eq_of_not_isRunning hdispatcher with hunborn | hended
    · have hcall := hbegun.dispatcher hunborn _ hstarted
      simp only [reduceCtorEq, StartCall.returned.injEq, Bool.true_eq_false, or_self] at hcall
    · exact hended
  refine ⟨hended, hended', hbegun.closed hended, hsessions, ?_⟩
  -- an entry would be of a session that is not over
  rw [Registry.size, List.length_eq_zero_iff, List.eq_nil_iff_forall_not_mem]
  intro handle hmem
  obtain ⟨i, t, hat, hgoes, -⟩ := howned handle hmem
  rw [hsessions t (List.mem_of_getElem? hat)] at hgoes
  cases hgoes

/-! ### Calls to wait -/

/-- What can become of the calls to wait. -/
private theorem Change.waits (hchange : Change s s') :
    s'.waits = s.waits ∨ s'.waits = s.waits ++ [.waiting] ∨
      ∃ k : Nat, s.waits[k]? = some .waiting ∧ s.isIdle = true ∧
        s'.waits = s.waits.set k .returned := by
  cases hchange with
  | calls call =>
    cases call with
    | waits => exact .inr (.inl rfl)
    | @hasWaited k call idle => exact .inr (.inr ⟨k, call, (Bool.and_eq_true_iff.1 idle).2, rfl⟩)
    | claims | startsAgain | spawnsAcceptor | spawnsDispatcher | hasStarted | asks | asksAgain
    | takesSignal | missesSignal | sendsSignal | abandons => exact .inl rfl
  | connects | advances | aborts => exact .inl rfl
  | arrives | closes =>
    exact .inl (feed_waits _ _ s)
  | accepts accepting => cases accepting <;> exact .inl rfl
  | dispatches dispatching => cases dispatching <;> exact .inl rfl

/-- A call to wait has returned by now only if nothing is running, or if it had returned before. -/
private theorem Change.isIdle_of_returned (hchange : Change s s') {k : Nat}
    (hat : s'.waits[k]? = some .returned) :
    s.waits[k]? = some .returned ∨ s.isIdle = true := by
  rcases hchange.waits with hsame | hwaits | ⟨j, -, hidle, hset⟩
  · exact .inl (hsame ▸ hat)
  · rw [hwaits, List.getElem?_append] at hat
    split at hat
    · exact .inl hat
    · have hmem := List.mem_singleton.1 (List.mem_of_getElem? hat)
      cases hmem
  · exact .inr hidle

/-- As soon as there is a call to wait, every task that is waited for is known. -/
def Tracked (s : Supervisor σ) : Prop :=
  s.waits ≠ [] → s.trackerClosed = true

/-- A wait returns on an idle tracker only. -/
private theorem Tracked.change (h : Tracked s) (hchange : Change s s') : Tracked s' := by
  cases hchange with
  | calls call =>
    cases call with
    | hasStarted | waits => exact fun _ => rfl
    | @hasWaited k call =>
      refine fun _ => h fun hnil => ?_
      rw [hnil] at call
      cases call
    | claims | startsAgain | spawnsAcceptor | spawnsDispatcher | asks | asksAgain | takesSignal
    | missesSignal | sendsSignal | abandons => exact h
  | connects | advances | aborts => exact h
  | arrives | closes =>
    simpa [Tracked] using h
  | accepts accepting => cases accepting <;> exact h
  | dispatches dispatching => cases dispatching <;> exact h

/-! ### Runs -/

variable {capacity limit : Nat} {sink : σ}

/-- What has begun stays so in every run. -/
theorem begun_of_reaches (hreach : Reaches act (.new capacity limit sink) s) :
    Begun s ∧ Tracked s := by
  have hall : StartsInOrder s ∧ Begun s ∧ Tracked s := by
    refine hreach.invariant
      (P := fun s : Supervisor σ => StartsInOrder s ∧ Begun s ∧ Tracked s) ?_ ?_
    · rintro s a s' ⟨hstarts, hbegun, htracked⟩ hact
      exact ⟨hstarts.change (.of_act hact), hbegun.change hstarts (.of_act hact),
        htracked.change (.of_act hact)⟩
    · refine ⟨(inOrder_of_reaches (.refl act _)).1, ⟨?_, fun _ => ⟨rfl, fun _ => rfl⟩, ?_, ?_, ?_⟩,
        fun hne => absurd rfl hne⟩
      · intro call rest hnil
        cases hnil
      · exact fun _ => List.forall_mem_nil _
      · exact fun _ => List.forall_mem_nil _
      · intro hended
        cases hended
  exact hall.2

private theorem mem_starts_of_reaches {first : Bool} (hmem : .returned first ∈ s.starts)
    (hreach : Reaches act s s') : .returned first ∈ s'.starts :=
  hreach.invariant (P := fun s' : Supervisor σ => .returned first ∈ s'.starts)
    (fun hmem hact => (Change.of_act hact).mem_starts hmem) hmem

/-- What has stopped stays so for ever. -/
private theorem Stopped.of_reaches (h : Stopped s) (hstarts : StartsInOrder s)
    (hreach : Reaches act s s') : Stopped s' ∧ Rested s s' := by
  have hall : StartsInOrder s' ∧ Stopped s' ∧ Rested s s' := by
    refine hreach.invariant
      (P := fun s' : Supervisor σ => StartsInOrder s' ∧ Stopped s' ∧ Rested s s') ?_ ?_
    · rintro t a t' ⟨hstarts, hstopped, hrested⟩ hact
      obtain ⟨hstopped', hrested'⟩ := hstopped.change hstarts (.of_act hact)
      exact ⟨hstarts.change (.of_act hact), hstopped', hrested.trans hrested'⟩
    · exact ⟨hstarts, h, .of_hub_eq rfl rfl⟩
  exact hall.2

/-- On an input that was started, a call to wait returns only once everything has stopped. -/
private theorem stopped_of_returned (hreach : Reaches act (.new capacity limit sink) s)
    (hstarted : .returned true ∈ s.starts) (hreach' : Reaches act s s') {k : Nat}
    (hlater : s.waits.length ≤ k) (hat : s'.waits[k]? = some .returned) : Stopped s' := by
  have hall : Reaches act s s' ∧ (s'.waits[k]? = some .returned → Stopped s') := by
    refine hreach'.invariant (P := fun s' : Supervisor σ => Reaches act s s' ∧
      (s'.waits[k]? = some .returned → Stopped s')) ?_ ⟨.refl act s, fun hat => ?_⟩
    · rintro t a t' ⟨hreach', hreturned⟩ hact
      refine ⟨hreach'.tail hact, fun hat => ?_⟩
      have hreach'' := hreach.trans hreach'
      have hstopped : Stopped t := by
        rcases (Change.of_act hact).isIdle_of_returned hat with hbefore | hidle
        · exact hreturned hbefore
        · exact stopped_of_isIdle (begun_of_reaches hreach'').1
            (Hub.owned_of_reaches (hub_of_reaches hreach''))
            (mem_starts_of_reaches hstarted hreach') hidle
      exact (hstopped.change (inOrder_of_reaches hreach'').1 (.of_act hact)).1
    · -- there was no such call yet
      have hlt := (List.getElem?_eq_some_iff.1 hat).1
      omega
  exact hall.2 hat

/-- **Waiting is a barrier.**  A call to start that finds the listener taken returns at once, and it
is the call that took the listener that starts the input; it has returned once all calls to start
have.  Behind it, a call to wait can come to its end at exactly the moments at which acceptor,
dispatcher and all sessions have ended, the listener is closed and nobody is in the registry.  When
it has come to its end all this is so, and stays so for ever: no session is made and none makes
another step, no client is entered, no batch is emitted and nothing is counted. -/
theorem wait_is_barrier (hreach : Reaches act (.new capacity limit sink) s) :
    (s.starts ≠ [] → (∀ call ∈ s.starts, ∃ first, call = .returned first) →
      .returned true ∈ s.starts) ∧
    (.returned true ∈ s.starts → ∀ s' (k : Nat), Reaches act s s' → s.waits.length ≤ k →
      (s'.waits[k]? = some .waiting → ((s'.stepWait k).isSome ↔ Stopped s')) ∧
      (s'.waits[k]? = some .returned → Stopped s' ∧ ∀ s'', Reaches act s' s'' →
        Stopped s'' ∧ Rested s' s'' ∧ ∀ i, s''.hub.advance i = none)) := by
  refine ⟨(begun_of_reaches hreach).1.returned_of_all, fun hstarted s' k hreach' hlater => ?_⟩
  have hreach'' := hreach.trans hreach'
  obtain ⟨hbegun, htracked⟩ := begun_of_reaches hreach''
  refine ⟨fun hat => ⟨fun hsome => ?_, fun hstopped => ?_⟩, fun hat => ?_⟩
  · obtain ⟨t, hstep⟩ := Option.isSome_iff_exists.1 hsome
    simp only [stepWait, hat, Option.ite_none_right_eq_some, Bool.and_eq_true] at hstep
    exact stopped_of_isIdle hbegun (Hub.owned_of_reaches (hub_of_reaches hreach''))
      (mem_starts_of_reaches hstarted hreach') hstep.1.2
  · have hclosed : s'.trackerClosed = true := by
      refine htracked fun hnil => ?_
      rw [hnil] at hat
      cases hat
    simp only [stepWait, hat, hclosed, hstopped.isIdle, Bool.and_self, if_true, Option.isSome_some]
  · have hstopped := stopped_of_returned hreach hstarted hreach' hlater hat
    refine ⟨hstopped, fun s'' hreach''' => ?_⟩
    obtain ⟨hstopped', hrested⟩ :=
      hstopped.of_reaches (inOrder_of_reaches hreach'').1 hreach'''
    exact ⟨hstopped', hrested, hstopped'.advance_eq_none⟩

/-- A client is served while the input stops: its session is made behind the signal, and the call to
wait returns once the session has seen that its client was shut down. -/
theorem wait_is_barrier_late :
    ∃ s s' s'' : Supervisor JsonLines, Reaches act (.new 1 8 ⟨.empty⟩) s ∧
      s.starts = [.returned true] ∧ Reaches act s s' ∧ s'.signal = .sent ∧
      s'.hub.sessions.length = 0 ∧ ¬ Stopped s' ∧ s'.stepWait 0 = none ∧ Reaches act s' s'' ∧
      s''.waits = [.returned] ∧ s''.hub.sessions.length = 1 ∧
      ∀ t, Reaches act s'' t → Stopped t ∧ t.hub.sessions.length = 1 := by
  let starting : List Action := [.start, .stepStart 0, .stepStart 0, .stepStart 0, .connect "a",
    .stepAcceptor, .stepAcceptor, .stepAcceptor, .stepAcceptor, .stepDispatcher]
  let stopping : List Action := [.wait, .stop, .stepStop 0, .stepStop 0]
  let ending : List Action := .replicate 5 .stepDispatcher ++ [.stepAcceptor] ++
    .replicate 3 (.stepSession 0) ++ [.stepWait 0]
  obtain ⟨s, hstarting, hstarts, hnone, s', hstopping, hwaiting, hsignal, hempty, hwaits, s'',
      hending, hreturned, hone⟩ :
      ∃ s : Supervisor JsonLines, starting.foldlM act (.new 1 8 ⟨.empty⟩) = some s ∧
        s.starts = [.returned true] ∧ s.waits = [] ∧
        ∃ s', stopping.foldlM act s = some s' ∧ s'.waits = [.waiting] ∧ s'.signal = .sent ∧
          s'.hub.sessions.length = 0 ∧ s'.stepWait 0 = none ∧
          ∃ s'', ending.foldlM act s' = some s'' ∧ s''.waits = [.returned] ∧
            s''.hub.sessions.length = 1 :=
    ⟨_, by cbv, rfl, rfl, _, by cbv, rfl, rfl, rfl, by cbv, _, by cbv, rfl, rfl⟩
  have hreach : Reaches act (.new 1 8 (⟨.empty⟩ : JsonLines)) s := .of_actions starting hstarting
  have hreach' : Reaches act s s' := .of_actions stopping hstopping
  have hreach'' : Reaches act s' s'' := .of_actions ending hending
  have hstarted : .returned true ∈ s.starts := by
    rw [hstarts]
    exact List.mem_singleton_self _
  have hlater : s.waits.length ≤ 0 := by
    rw [hnone]
    rfl
  have hbarrier := (wait_is_barrier hreach).2 hstarted
  refine ⟨s, s', s'', hreach, hstarts, hreach', hsignal, hempty, fun hstopped => ?_, hwaits,
    hreach'', hreturned, hone, fun t hreach''' => ?_⟩
  · have hsome := ((hbarrier s' 0 hreach' hlater).1 (by rw [hwaiting]; rfl)).2 hstopped
    rw [hwaits] at hsome
    cases hsome
  · have hstays := (hbarrier s'' 0 (hreach'.trans hreach'') hlater).2 (by rw [hreturned]; rfl)
    obtain ⟨hstopped, hrested, -⟩ := hstays.2 t hreach'''
    exact ⟨hstopped, hrested.sessions.trans hone⟩

end Supervisor

end ForwardIntake
