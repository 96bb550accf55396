import ForwardIntake.Proofs.Listen.Waiting

/-!
# Starting and stopping take effect once

There may be any number of calls to start and to stop at once, and each may halt between any two of
its steps.  What such a call does for all of them is a `Deed`: it takes the listener, gives birth to
the acceptor or to the dispatcher, sets the flag, takes the means to send the signal, or sends it.
Every deed leaves a mark on the input (`Deed.Shows`).  The mark stays (`Change.shows`), and a call
does the deed only where there is no mark yet (`Deed.IsDone.mark`).  So no run does a deed twice.

Who has sent the signal is told by what the calls return: it is the call that has returned `true`,
and once all calls have returned there is exactly one (`calls_take_effect_once`).
-/

namespace ForwardIntake

/-- How far a call to stop has come, none before it is made, and how far it comes in one action. -/
inductive StopCall.Goes : Option StopCall → Option StopCall → Prop where
  | stays (call : Option StopCall) : Goes call call
  | asks : Goes none (some .won)
  | asksAgain : Goes none (some (.returned false))
  | takesSignal : Goes (some .won) (some .signalling)
  | missesSignal : Goes (some .won) (some (.returned false))
  | sendsSignal : Goes (some .signalling) (some (.returned true))

/-- A stop call returns true when it did before, or now behind its signal. -/
private theorem StopCall.Goes.returned_iff {call call' : Option StopCall} (h : Goes call call') :
    call' = some (.returned true) ↔
      call = some (.returned true) ∨ call = some .signalling ∧ call' = some (.returned true) := by
  cases h with
  | stays => exact ⟨.inl, fun h => h.elim id And.right⟩
  | asks | asksAgain | takesSignal | missesSignal | sendsSignal => simp

/-- What a call to start or to stop does for all of them. -/
inductive Deed where
  /-- It is the first to ask for the end, and sets the flag. -/
  | asks
  | takesSignal
  | sendsSignal
  | takesListener
  | spawnsAcceptor
  | spawnsDispatcher
  deriving DecidableEq, Repr

namespace Supervisor

variable {σ : Type} {s s' : Supervisor σ} {k : Nat}

/-! ### Deeds -/

/-- The call with the number `k` does the deed in the action that leads from one state to the
other. -/
def IsDone (deed : Deed) (k : Nat) (s s' : Supervisor σ) : Prop :=
  match deed with
  | .asks => s.stops[k]? = none ∧ s'.stops[k]? = some .won
  | .takesSignal => s.stops[k]? = some .won ∧ s'.stops[k]? = some .signalling
  | .sendsSignal => s.stops[k]? = some .signalling ∧ s'.stops[k]? = some (.returned true)
  | .takesListener => s.starts[k]? = none ∧ s'.starts[k]? = some .claimed
  | .spawnsAcceptor => s.starts[k]? = some .claimed ∧ s'.starts[k]? = some .acceptorStarted
  | .spawnsDispatcher =>
    s.starts[k]? = some .acceptorStarted ∧ s'.starts[k]? = some .dispatcherStarted

/-- The mark that a deed leaves on the input. -/
def Shows (deed : Deed) (s : Supervisor σ) : Prop :=
  match deed with
  | .asks => s.stopping = true
  | .takesSignal => s.signal = .taken ∨ s.signal = .sent
  | .sendsSignal => s.signal = .sent
  | .takesListener => s.listener ≠ .held
  | .spawnsAcceptor => s.acceptor ≠ .unborn
  | .spawnsDispatcher => s.dispatcher ≠ .unborn

/-! ### Marks stay -/

/-- Calls leave the marks of what was done. -/
private theorem Call.shows (h : Call s s') (deed : Deed) (hs : Shows deed s) : Shows deed s' := by
  cases h with
  | claims =>
    cases deed with
    | takesListener => exact fun hheld => by cases hheld
    | asks | takesSignal | sendsSignal | spawnsAcceptor | spawnsDispatcher => exact hs
  | spawnsAcceptor =>
    cases deed with
    | spawnsAcceptor => exact fun hunborn => by cases hunborn
    | asks | takesSignal | sendsSignal | takesListener | spawnsDispatcher => exact hs
  | spawnsDispatcher =>
    cases deed with
    | spawnsDispatcher => exact fun hunborn => by cases hunborn
    | asks | takesSignal | sendsSignal | takesListener | spawnsAcceptor => exact hs
  | asks =>
    cases deed with
    | asks => exact rfl
    | takesSignal | sendsSignal | takesListener | spawnsAcceptor | spawnsDispatcher => exact hs
  | takesSignal call signal =>
    cases deed with
    | takesSignal => exact .inl rfl
    | sendsSignal => cases signal.symm.trans hs
    | asks | takesListener | spawnsAcceptor | spawnsDispatcher => exact hs
  | sendsSignal =>
    cases deed with
    | takesSignal => exact .inr rfl
    | sendsSignal => exact rfl
    | asks | takesListener | spawnsAcceptor | spawnsDispatcher => exact hs
  | abandons =>
    -- what the input has not got any more it cannot take with it
    cases deed with
    | takesSignal =>
      have hgone : s.signal ≠ .held := by
        rintro hheld
        rcases hs with hs | hs
        · cases hheld.symm.trans hs
        · cases hheld.symm.trans hs
      simpa only [Shows, if_neg hgone] using hs
    | sendsSignal =>
      have hgone : s.signal ≠ .held := fun hheld => by cases hheld.symm.trans hs
      simpa only [Shows, if_neg hgone] using hs
    | takesListener => simpa only [Shows, if_neg hs] using hs
    | asks | spawnsAcceptor | spawnsDispatcher => exact hs
  | startsAgain | hasStarted | asksAgain | missesSignal | waits | hasWaited =>
    cases deed <;> exact hs

private theorem Accepting.shows (h : Accepting s s') (deed : Deed) (hs : Shows deed s) :
    Shows deed s' := by
  cases h with
  | goesOn | takes | offers | passesOn =>
    cases deed with
    | spawnsAcceptor => exact fun hunborn => by cases hunborn
    | asks | takesSignal | sendsSignal | takesListener | spawnsDispatcher => exact hs
  | ends =>
    cases deed with
    | spawnsAcceptor => exact fun hunborn => by cases hunborn
    | takesListener => exact fun hheld => by cases hheld
    | asks | takesSignal | sendsSignal | spawnsDispatcher => exact hs

private theorem Dispatching.shows (h : Dispatching s s') (deed : Deed) (hs : Shows deed s) :
    Shows deed s' := by
  cases h with
  | turns | serves | misses | stops | closes | sweeps | leaves =>
    cases deed with
    | spawnsDispatcher => exact fun hunborn => by cases hunborn
    | asks | takesSignal | sendsSignal | takesListener | spawnsAcceptor => exact hs

/-- The mark of a deed stays for ever. -/
private theorem Change.shows [Sink σ] (h : Change s s') (deed : Deed) (hs : Shows deed s) :
    Shows deed s' := by
  cases h with
  | calls call => exact call.shows deed hs
  | connects | advances | aborts => cases deed <;> exact hs
  | arrives | closes =>
    cases deed <;> simpa [Shows] using hs
  | accepts accepting => exact accepting.shows deed hs
  | dispatches dispatching => exact dispatching.shows deed hs

/-! ### Marks come from deeds -/

/-- A mark of a call is old, or a call has just made it. -/
private theorem Call.shows_or_isDone (h : Call s s') (hstops : StopsInOrder s) (deed : Deed)
    (hne : deed ≠ .takesListener) (hs' : Shows deed s') :
    Shows deed s ∨ ∃ k, IsDone deed k s s' := by
  have hset {α : Type} {l : List α} {k : Nat} {a : α} (hat : l[k]? = some a) (b : α) :
      (l.set k b)[k]? = some b :=
    List.getElem?_set_self (List.getElem?_eq_some_iff.1 hat).1
  cases h with
  | claims =>
    cases deed with
    | takesListener => exact absurd rfl hne
    | asks | takesSignal | sendsSignal | spawnsAcceptor | spawnsDispatcher => exact .inl hs'
  | @spawnsAcceptor k call =>
    cases deed with
    | spawnsAcceptor => exact .inr ⟨k, call, hset call _⟩
    | asks | takesSignal | sendsSignal | takesListener | spawnsDispatcher => exact .inl hs'
  | @spawnsDispatcher k call =>
    cases deed with
    | spawnsDispatcher => exact .inr ⟨k, call, hset call _⟩
    | asks | takesSignal | sendsSignal | takesListener | spawnsAcceptor => exact .inl hs'
  | asks =>
    cases deed with
    | asks => exact .inr ⟨s.stops.length, List.getElem?_eq_none le_rfl, List.getElem?_concat_length⟩
    | takesSignal | sendsSignal | takesListener | spawnsAcceptor | spawnsDispatcher =>
      exact .inl hs'
  | @takesSignal k call =>
    cases deed with
    | takesSignal => exact .inr ⟨k, call, hset call _⟩
    | sendsSignal => cases hs'
    | asks | takesListener | spawnsAcceptor | spawnsDispatcher => exact .inl hs'
  | @sendsSignal k call =>
    cases deed with
    | takesSignal => exact .inl (.inl (hstops.signal_of_signalling call))
    | sendsSignal => exact .inr ⟨k, call, hset call _⟩
    | asks | takesListener | spawnsAcceptor | spawnsDispatcher => exact .inl hs'
  | abandons =>
    by_cases hheld : s.signal = .held
    · cases deed with
      | takesListener => exact absurd rfl hne
      | takesSignal | sendsSignal =>
        simp only [Shows, if_pos hheld, reduceCtorEq, or_self] at hs'
      | asks | spawnsAcceptor | spawnsDispatcher => exact .inl hs'
    · cases deed with
      | takesListener => exact absurd rfl hne
      | takesSignal | sendsSignal =>
        simp only [Shows, if_neg hheld] at hs'
        exact .inl hs'
      | asks | spawnsAcceptor | spawnsDispatcher => exact .inl hs'
  | startsAgain | hasStarted | asksAgain | missesSignal | waits | hasWaited =>
    cases deed <;> exact .inl hs'

/-- There is no mark without a deed, but that the input may be given up with its listener. -/
private theorem Change.shows_or_isDone [Sink σ] (h : Change s s') (hstops : StopsInOrder s)
    (deed : Deed) (hne : deed ≠ .takesListener) (hs' : Shows deed s') :
    Shows deed s ∨ ∃ k, IsDone deed k s s' := by
  cases h with
  | calls call => exact call.shows_or_isDone hstops deed hne hs'
  | connects | advances | aborts => cases deed <;> exact .inl hs'
  | arrives | closes =>
    cases deed <;> exact .inl (by simpa [Shows] using hs')
  | accepts accepting =>
    have hborn := accepting.ne_unborn
    cases deed with
    | takesListener => exact absurd rfl hne
    | spawnsAcceptor => exact .inl hborn
    | asks | takesSignal | sendsSignal | spawnsDispatcher =>
      cases accepting <;> exact .inl hs'
  | dispatches dispatching =>
    have hborn := dispatching.ne_unborn
    cases deed with
    | spawnsDispatcher => exact .inl hborn
    | asks | takesSignal | sendsSignal | takesListener | spawnsAcceptor =>
      cases dispatching <;> exact .inl hs'

/-! ### Calls go on -/

/-- A stop call goes on in order. -/
private theorem Call.goes (h : Call s s') (k : Nat) : StopCall.Goes s.stops[k]? s'.stops[k]? := by
  have happend (call : StopCall) (hfirst : StopCall.Goes none (some call)) :
      StopCall.Goes s.stops[k]? (s.stops ++ [call])[k]? := by
    rw [List.getElem?_append]
    split
    · exact .stays _
    · rename_i hle
      rw [List.getElem?_eq_none (Nat.le_of_not_lt hle), List.getElem?_singleton]
      split
      · exact hfirst
      · exact .stays none
  have hset {j : Nat} {call call' : StopCall} (hat : s.stops[j]? = some call)
      (hnext : StopCall.Goes (some call) (some call')) :
      StopCall.Goes s.stops[k]? (s.stops.set j call')[k]? := by
    by_cases hjk : j = k
    · subst hjk
      rw [List.getElem?_set_self (List.getElem?_eq_some_iff.1 hat).1, hat]
      exact hnext
    · rw [List.getElem?_set_ne hjk]
      exact .stays _
  cases h with
  | asks => exact happend _ .asks
  | asksAgain => exact happend _ .asksAgain
  | takesSignal call => exact hset call .takesSignal
  | missesSignal call => exact hset call .missesSignal
  | sendsSignal call => exact hset call .sendsSignal
  | claims | startsAgain | spawnsAcceptor | spawnsDispatcher | hasStarted | waits | hasWaited
  | abandons => exact .stays _

private theorem Change.goes [Sink σ] (h : Change s s') (k : Nat) :
    StopCall.Goes s.stops[k]? s'.stops[k]? := by
  rcases h.call_or_keeps with hcall | ⟨hstops, -⟩
  · exact hcall.goes k
  · rw [hstops]
    exact .stays _

/-! ### Deeds find no mark -/

/-- As long as the first call has not come to it, there is no acceptor. -/
def Unclaimed (s : Supervisor σ) : Prop :=
  .claimed ∈ s.starts → s.acceptor = .unborn

/-- Calls keep the listener with its first claimant. -/
private theorem Unclaimed.call (h : Unclaimed s) (hstarts : StartsInOrder s) (hbegun : Begun s)
    (hcall : Call s s') : Unclaimed s' := by
  -- the call that goes on is the first one, and the others have returned
  have hset {k : Nat} {call call' : StartCall} (hat : s.starts[k]? = some call)
      (hne : call ≠ .returned false) (hne' : call' ≠ .claimed) :
      .claimed ∉ s.starts.set k call' := by
    obtain ⟨rest, hrest, hcons⟩ := hstarts.later.exists_set hat hne
    have hlater := hstarts.later
    rw [hrest] at hlater
    rw [hcons, List.mem_cons, not_or]
    exact ⟨hne'.symm, fun hmem => by cases hlater _ hmem⟩
  cases hcall with
  | claims present listener =>
    refine fun _ => (hbegun.untouched ?_).1
    by_contra hne
    exact hstarts.claimed hne listener
  | startsAgain =>
    intro hmem
    rcases List.mem_append.1 hmem with hmem | hmem
    · exact h hmem
    · cases List.mem_singleton.1 hmem
  | spawnsAcceptor call | spawnsDispatcher call | hasStarted call =>
    exact fun hmem => absurd hmem (hset call (by decide) (by decide))
  | asks | asksAgain | takesSignal | missesSignal | sendsSignal | waits | hasWaited | abandons =>
    exact h

private theorem Unclaimed.change [Sink σ] (h : Unclaimed s) (hstarts : StartsInOrder s)
    (hbegun : Begun s) (hchange : Change s s') : Unclaimed s' := by
  cases hchange with
  | calls call => exact h.call hstarts hbegun call
  | connects | advances | aborts => exact h
  | arrives | closes =>
    simpa [Unclaimed] using h
  | accepts accepting =>
    have hborn := accepting.ne_unborn
    cases accepting with
    | goesOn | takes | offers | passesOn | ends => exact fun hmem => absurd (h hmem) hborn
  | dispatches dispatching =>
    cases dispatching with
    | turns | serves | misses | stops | closes | sweeps | leaves => exact h

/-- Who takes the listener finds it with the input. -/
private theorem Change.listener_of_claimed [Sink σ] (h : Change s s')
    (hbefore : s.starts[k]? = none) (hat : s'.starts[k]? = some .claimed) : s.listener = .held := by
  have hsame (hstarts : s'.starts = s.starts) : s.listener = .held := by
    rw [hstarts, hbefore] at hat
    cases hat
  have hset {j : Nat} {call : StartCall} (hstarts : s'.starts = s.starts.set j call) :
      s.listener = .held := by
    rw [hstarts, List.getElem?_eq_none] at hat
    · cases hat
    · rw [List.length_set]
      exact List.getElem?_eq_none_iff.1 hbefore
  cases h with
  | calls call =>
    cases call with
    | claims present listener => exact listener
    | startsAgain =>
      rw [List.getElem?_append_right (List.getElem?_eq_none_iff.1 hbefore)] at hat
      cases List.mem_singleton.1 (List.mem_of_getElem? hat)
    | spawnsAcceptor | spawnsDispatcher | hasStarted => exact hset rfl
    | asks | asksAgain | takesSignal | missesSignal | sendsSignal | waits | hasWaited
    | abandons => exact hsame rfl
  | connects | advances | aborts => exact hsame rfl
  | arrives | closes =>
    exact hsame (feed_starts _ _ s)
  | accepts accepting => cases accepting <;> exact hsame rfl
  | dispatches dispatching => cases dispatching <;> exact hsame rfl

variable [Sink σ] {capacity limit : Nat} {sink : σ}

/-- The listener is claimed once in every run. -/
theorem unclaimed_of_reaches (hreach : Reaches act (.new capacity limit sink) s) :
    Unclaimed s := by
  have hall : Reaches act (.new capacity limit sink) s ∧ Unclaimed s := by
    refine hreach.invariant (P := fun s : Supervisor σ =>
      Reaches act (.new capacity limit sink) s ∧ Unclaimed s) ?_ ⟨.refl act _, fun _ => rfl⟩
    rintro s a s' ⟨hreach, hunclaimed⟩ hact
    exact ⟨hreach.tail hact, hunclaimed.change (inOrder_of_reaches hreach).1
      (begun_of_reaches hreach).1 (.of_act hact)⟩
  exact hall.2

/-- A deed finds no mark, and leaves one. -/
private theorem IsDone.mark {a : Action} {deed : Deed}
    (hreach : Reaches act (.new capacity limit sink) s)
    (hact : s.act a = some s') (h : IsDone deed k s s') : ¬ Shows deed s ∧ Shows deed s' := by
  have hreach' := hreach.tail hact
  obtain ⟨hstarts, hstops⟩ := inOrder_of_reaches hreach
  obtain ⟨hstarts', hstops'⟩ := inOrder_of_reaches hreach'
  have hbegun' := (begun_of_reaches hreach').1
  cases deed with
  | asks =>
    obtain ⟨hbefore, hafter⟩ := h
    refine ⟨fun hstopping => ?_, hstops'.stopping.2 (List.ne_nil_of_mem
      (List.mem_of_getElem? hafter))⟩
    rw [hstops'.later.eq_zero hafter (by decide), ← List.head?_eq_getElem?,
      List.head?_eq_none_iff] at hbefore
    exact hstops.stopping.1 hstopping hbefore
  | takesSignal =>
    obtain ⟨hbefore, hafter⟩ := h
    refine ⟨fun hshows => ?_, .inl (hstops'.signal_of_signalling hafter)⟩
    rw [Shows, hstops.signal_of_won hbefore] at hshows
    simp only [reduceCtorEq, or_self] at hshows
  | sendsSignal =>
    obtain ⟨hbefore, hafter⟩ := h
    refine ⟨fun hsent => ?_, hstops'.signal_of_returned (List.mem_of_getElem? hafter)⟩
    cases (hstops.signal_of_signalling hbefore).symm.trans hsent
  | takesListener =>
    obtain ⟨hbefore, hafter⟩ := h
    exact ⟨fun hgone => hgone ((Change.of_act hact).listener_of_claimed hbefore hafter),
      hstarts'.claimed (List.ne_nil_of_mem (List.mem_of_getElem? hafter))⟩
  | spawnsAcceptor =>
    obtain ⟨hbefore, hafter⟩ := h
    exact ⟨fun hborn => hborn (unclaimed_of_reaches hreach (List.mem_of_getElem? hbefore)),
      hbegun'.acceptor_ne_unborn hafter (by decide) (by decide)⟩
  | spawnsDispatcher =>
    obtain ⟨hbefore, hafter⟩ := h
    refine ⟨fun hborn => hborn (hstarts.unborn_of_call hbefore (.inr rfl)), fun hunborn => ?_⟩
    have hmissing := hbegun'.dispatcher hunborn _ (List.mem_of_getElem? hafter)
    simp only [reduceCtorEq, or_self] at hmissing

/-! ### Runs -/

private theorem shows_of_reaches (deed : Deed) (hs : Shows deed s) (hreach : Reaches act s s') :
    Shows deed s' :=
  hreach.invariant (P := Shows deed) (fun hs hact => (Change.of_act hact).shows deed hs) hs

/-- No run does a deed twice. -/
private theorem once_isDone (deed : Deed) :
    Once act (fun s s' => ∃ k, IsDone deed k s s') (.new capacity limit sink) := by
  refine .of_mark (P := Shows deed) (fun _ _ _ _ hact => (Change.of_act hact).shows deed) ?_
  rintro s a s' hreach hact ⟨k, hdone⟩
  exact hdone.mark hreach hact

/-- The call that has returned `true` is the one that has sent the signal. -/
private theorem returned_iff_happened (hreach : Reaches act (.new capacity limit sink) s) :
    s.stops[k]? = some (.returned true) ↔
      Happened act (IsDone .sendsSignal k) (.new capacity limit sink) s :=
  hreach.iff_happened (P := fun s => s.stops[k]? = some (.returned true))
    (fun hat => by cases hat) fun _ _ _ _ hact => ((Change.of_act hact).goes k).returned_iff

/-- A mark tells that its deed was done. -/
private theorem shows_iff_happened (hreach : Reaches act (.new capacity limit sink) s) {deed : Deed}
    (hne : deed ≠ .takesListener) : Shows deed s ↔
      Happened act (fun s s' => ∃ k, IsDone deed k s s') (.new capacity limit sink) s := by
  have hfresh : ¬ Shows deed (.new capacity limit sink) := by
    cases deed <;> simp [Shows, new] at hne ⊢
  refine hreach.iff_happened (P := Shows deed) hfresh fun t a u ht hact => ⟨?_, fun hbefore => ?_⟩
  · exact (Change.of_act hact).shows_or_isDone (inOrder_of_reaches ht).2 deed hne
  · rcases hbefore with hbefore | ⟨k, hdone⟩
    · exact (Change.of_act hact).shows deed hbefore
    · exact (hdone.mark ht hact).2

/-- **Starting and stopping take effect once**, however many calls there are and in whichever order
their steps come:

* No run does a deed twice: a deed finds no mark of it on the input, and leaves one for ever.  But
  for the listener, with which the input may also be given up, there is no mark without the deed.
* A call to stop returns `true` if and only if it has sent the signal, and no two calls do.  Once
  there were calls and all of them have returned, there is exactly one.
* The flag says whether there was a call to stop, and is never taken back.
* No two calls to start have begun, or have come to the end of it. -/
theorem calls_take_effect_once (hreach : Reaches act (.new capacity limit sink) s) :
    (∀ deed, Once act (fun t u => ∃ k, IsDone deed k t u) (.new capacity limit sink)) ∧
    (∀ deed k a s', s.act a = some s' → IsDone deed k s s' →
      ¬ Shows deed s ∧ ∀ t, Reaches act s' t → Shows deed t) ∧
    (∀ deed, deed ≠ .takesListener → (Shows deed s ↔
      Happened act (fun t u => ∃ k, IsDone deed k t u) (.new capacity limit sink) s)) ∧
    (∀ k : Nat, s.stops[k]? = some (.returned true) ↔
      Happened act (IsDone .sendsSignal k) (.new capacity limit sink) s) ∧
    (∀ j k : Nat, s.stops[j]? = some (.returned true) → s.stops[k]? = some (.returned true) →
      j = k) ∧
    (s.stops ≠ [] → (∀ call ∈ s.stops, ∃ sent, call = .returned sent) →
      ∃! k : Nat, s.stops[k]? = some (.returned true)) ∧
    (s.stopping = true ↔ s.stops ≠ []) ∧
    (s.stopping = true → ∀ t, Reaches act s t → t.stopping = true) ∧
    (∀ (j k : Nat) (call call' : StartCall), s.starts[j]? = some call → s.starts[k]? = some call' →
      call ≠ .returned false → call' ≠ .returned false → j = k) := by
  obtain ⟨hstarts, hstops⟩ := inOrder_of_reaches hreach
  have hfirst {k : Nat} (hat : s.stops[k]? = some (.returned true)) : k = 0 :=
    hstops.later.eq_zero hat (by decide)
  refine ⟨once_isDone, fun deed k a s' hact hdone => ?_, fun deed => shows_iff_happened hreach,
    fun k => returned_iff_happened hreach,
    fun j k hj hk => (hfirst hj).trans (hfirst hk).symm, fun hne hall => ?_, hstops.stopping,
    fun hstopping t hreach' => shows_of_reaches .asks hstopping hreach',
    fun j k call call' hj hk hne hne' => ?_⟩
  · obtain ⟨hfree, hmark⟩ := hdone.mark hreach hact
    exact ⟨hfree, fun t hreach' => shows_of_reaches deed hmark hreach'⟩
  · obtain ⟨k, hat⟩ := List.getElem?_of_mem (hstops.returned_of_all hne hall)
    exact ⟨k, hat, fun j hj => (hfirst hj).trans (hfirst hat).symm⟩
  · exact (hstarts.later.eq_zero hj hne).trans (hstarts.later.eq_zero hk hne').symm

/-- Three calls to stop and two to start, none of which runs through: the input is asked to stop
before it has an acceptor, and is told so before it has a dispatcher.  One call to stop has sent the
signal, and from then on no other will. -/
theorem calls_take_effect_once_mixed :
    ∃ s s' t : Supervisor JsonLines, Reaches act (.new 1 8 ⟨.empty⟩) s ∧
      s.act (.stepStop 0) = some s' ∧ s.starts = [.acceptorStarted, .returned false] ∧
      s.stops = [.signalling, .returned false] ∧ ¬ Shows .sendsSignal s ∧ Reaches act s' t ∧
      t.starts = [.returned true, .returned false] ∧
      t.stops = [.returned true, .returned false, .returned false] ∧
      (∃! k : Nat, t.stops[k]? = some (.returned true)) ∧
      ∀ u, Reaches act t u → u.stopping = true ∧
        ¬ Happened act (fun t u => ∃ k, IsDone .sendsSignal k t u) t u := by
  let before : List Action :=
    [.start, .stop, .start, .stepStart 0, .stop, .stepStop 0]
  let after : List Action := [.stepStart 0, .stop, .stepStart 0]
  obtain ⟨s, hbefore, hstarts, hstops, s', hact, hdone, t, hafter, hstarts', hstops'⟩ :
      ∃ s : Supervisor JsonLines, before.foldlM act (.new 1 8 ⟨.empty⟩) = some s ∧
        s.starts = [.acceptorStarted, .returned false] ∧
        s.stops = [.signalling, .returned false] ∧
        ∃ s', s.act (.stepStop 0) = some s' ∧ IsDone .sendsSignal 0 s s' ∧
          ∃ t, after.foldlM act s' = some t ∧ t.starts = [.returned true, .returned false] ∧
            t.stops = [.returned true, .returned false, .returned false] :=
    ⟨_, by cbv, rfl, rfl, _, by cbv, ⟨rfl, rfl⟩, _, by cbv, rfl, rfl⟩
  have hreach : Reaches act (.new 1 8 (⟨.empty⟩ : JsonLines)) s := .of_actions before hbefore
  have hreach' : Reaches act s' t := .of_actions after hafter
  obtain ⟨honce, hmark, -⟩ := calls_take_effect_once hreach
  obtain ⟨-, -, -, -, -, hunique, hstopping, hflag, -⟩ :=
    calls_take_effect_once ((hreach.tail hact).trans hreach')
  have hne : t.stops ≠ [] := by
    rw [hstops']
    exact List.cons_ne_nil _ _
  refine ⟨s, s', t, hreach, hact, hstarts, hstops, (hmark .sendsSignal 0 _ s' hact hdone).1,
    hreach', hstarts', hstops', hunique hne ?_, fun u hreach'' => ⟨?_, fun hagain => ?_⟩⟩
  · rw [hstops']
    simp
  · exact hflag (hstopping.2 hne) u hreach''
  · obtain ⟨v, a, w, hv, ha, hdone', hw⟩ := hagain
    exact honce .sendsSignal s _ s' w hreach hact ⟨0, hdone⟩
      ⟨v, a, w, hreach'.trans hv, ha, hdone', .refl act w⟩

end Supervisor

end ForwardIntake
