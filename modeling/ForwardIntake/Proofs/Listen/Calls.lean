import ForwardIntake.Proofs.Listen.Steps
import Mathlib

/-!
# Calls to an input

However many calls to start and to stop there are at once, the first one of each kind does what is
asked for and the others return without having done anything.  So a dispatcher is started once
(`Supervisor.StartsInOrder`), and the signal was sent if a call to stop says so
(`Supervisor.StopsInOrder`).
-/

namespace ForwardIntake

/-! ### Lists in which only the first entry counts -/

/-- All entries but the first are `a`. -/
def FirstOnly {α : Type} (a : α) (l : List α) : Prop :=
  ∀ b ∈ l.tail, b = a

namespace FirstOnly

variable {α : Type} {a b : α} {l : List α}

/-- A call is added behind the first. -/
private theorem append (h : FirstOnly a l) : FirstOnly a (l ++ [a]) := by
  cases l with
  | nil => exact List.forall_mem_nil _
  | cons first rest =>
    intro b hmem
    rcases List.mem_append.1 hmem with hrest | hlast
    · exact h b hrest
    · exact List.mem_singleton.1 hlast

/-- Only the first call differs. -/
theorem eq_zero (h : FirstOnly a l) {k : Nat} (hat : l[k]? = some b) (hne : b ≠ a) : k = 0 := by
  cases l with
  | nil => cases hat
  | cons first rest =>
    cases k with
    | zero => rfl
    | succ k => exact absurd (h b (List.mem_of_getElem? hat)) hne

/-- An entry that is not `a` is the first one. -/
theorem exists_set (h : FirstOnly a l) {k : Nat} (hat : l[k]? = some b) (hne : b ≠ a) :
    ∃ rest, l = b :: rest ∧ ∀ c, l.set k c = c :: rest := by
  obtain rfl := h.eq_zero hat hne
  cases l with
  | nil => cases hat
  | cons first rest =>
    obtain rfl : first = b := Option.some.inj hat
    exact ⟨rest, rfl, fun _ => rfl⟩

end FirstOnly

namespace Supervisor

variable {σ : Type} {s s' : Supervisor σ}

/-! ### Calls to start -/

/-- The first call to start is the only one that does anything, and it is what gives birth to the
dispatcher. -/
structure StartsInOrder (s : Supervisor σ) : Prop where
  later : FirstOnly (.returned false) s.starts
  claimed : s.starts ≠ [] → s.listener ≠ .held
  born : s.dispatcher ≠ .unborn → ∃ call rest, s.starts = call :: rest ∧
    (call = .dispatcherStarted ∨ call = .returned true)

/-- Nothing runs before the first start call. -/
theorem StartsInOrder.unborn_of_nil (h : StartsInOrder s) (hstarts : s.starts = []) :
    s.dispatcher = .unborn := by
  by_contra hborn
  obtain ⟨call, rest, hrest, -⟩ := h.born hborn
  rw [hstarts] at hrest
  cases hrest

/-- As long as the first call has not come to it, there is no dispatcher. -/
theorem StartsInOrder.unborn_of_call (h : StartsInOrder s) {k : Nat} {call : StartCall}
    (hat : s.starts[k]? = some call) (hcall : call = .claimed ∨ call = .acceptorStarted) :
    s.dispatcher = .unborn := by
  have hne : call ≠ .returned false := by
    rcases hcall with rfl | rfl
    · decide
    · decide
  obtain ⟨rest, hrest, -⟩ := h.later.exists_set hat hne
  by_contra hborn
  obtain ⟨first, rest', hfirst, hdone⟩ := h.born hborn
  obtain ⟨rfl, -⟩ := List.cons.inj (hrest.symm.trans hfirst)
  rcases hcall with rfl | rfl
  · simp only [reduceCtorEq, or_self] at hdone
  · simp only [reduceCtorEq, or_self] at hdone

/-- A further start call returns at once. -/
private theorem StartsInOrder.append (h : StartsInOrder s) {call : StartCall}
    (hcall : s.starts = [] ∨ call = .returned false) (hstarts : s'.starts = s.starts ++ [call])
    (hlistener : s'.listener ≠ .held) (hdispatcher : s'.dispatcher = s.dispatcher) :
    StartsInOrder s' := by
  refine ⟨?_, fun _ => hlistener, fun hborn => ?_⟩
  · rw [hstarts]
    rcases hcall with hnil | rfl
    · rw [hnil]
      exact List.forall_mem_nil _
    · exact h.later.append
  · rw [hdispatcher] at hborn
    obtain ⟨first, rest, hrest, hfirst⟩ := h.born hborn
    exact ⟨first, rest ++ [call], by rw [hstarts, hrest, List.cons_append], hfirst⟩

/-- The first start call goes on. -/
private theorem StartsInOrder.set (h : StartsInOrder s) {k : Nat} {call call' : StartCall}
    (hat : s.starts[k]? = some call) (hne : call ≠ .returned false)
    (hstarts : s'.starts = s.starts.set k call') (hlistener : s'.listener = s.listener)
    (hborn : s'.dispatcher ≠ .unborn → call' = .dispatcherStarted ∨ call' = .returned true) :
    StartsInOrder s' := by
  obtain ⟨rest, hrest, hset⟩ := h.later.exists_set hat hne
  have hlater := h.later
  have hclaimed := h.claimed
  rw [hrest] at hlater hclaimed
  rw [hset] at hstarts
  refine ⟨?_, fun _ => ?_, fun hborn' => ⟨call', rest, hstarts, hborn hborn'⟩⟩
  · rw [hstarts]
    exact hlater
  · rw [hlistener]
    exact hclaimed (List.cons_ne_nil call rest)

/-- Calls keep the start calls in order. -/
private theorem StartsInOrder.call (h : StartsInOrder s) (hcall : Call s s') :
    StartsInOrder s' := by
  cases hcall with
  | claims present listener =>
    have hnil : s.starts = [] := by
      by_contra hne
      exact h.claimed hne listener
    exact h.append (.inl hnil) rfl (fun hheld => by cases hheld) rfl
  | startsAgain present listener => exact h.append (.inr rfl) rfl listener rfl
  | spawnsAcceptor call =>
    have hunborn := h.unborn_of_call call (.inl rfl)
    exact h.set call (by decide) rfl rfl fun hborn => absurd hunborn hborn
  | spawnsDispatcher call => exact h.set call (by decide) rfl rfl fun _ => .inl rfl
  | hasStarted call => exact h.set call (by decide) rfl rfl fun _ => .inr rfl
  | abandons present returned =>
    refine ⟨h.later, fun hne => ?_, h.born⟩
    simp only [if_neg (h.claimed hne)]
    exact h.claimed hne
  | asks | asksAgain | takesSignal | missesSignal | sendsSignal | waits | hasWaited =>
    exact ⟨h.later, h.claimed, h.born⟩

/-- Only a dispatcher that was started dispatches. -/
theorem Dispatching.ne_unborn (h : Dispatching s s') : s.dispatcher ≠ .unborn := by
  intro hunborn
  cases h with
  | turns dispatcher | serves dispatcher | misses dispatcher | closes dispatcher
  | sweeps dispatcher | leaves dispatcher =>
    rw [hunborn] at dispatcher
    cases dispatcher
  | stops dispatcher =>
    rw [hunborn] at dispatcher
    simp only [reduceCtorEq, exists_false, false_and, or_self] at dispatcher

/-- **Start calls stay in order.** -/
theorem StartsInOrder.change [Sink σ] (h : StartsInOrder s) (hchange : Change s s') :
    StartsInOrder s' := by
  cases hchange with
  | calls call => exact h.call call
  | connects | advances | aborts => exact ⟨h.later, h.claimed, h.born⟩
  | arrives | closes =>
    exact ⟨by simpa using h.later, by simpa using h.claimed, by simpa using h.born⟩
  | accepts accepting =>
    cases accepting with
    | ends => exact ⟨h.later, fun _ hheld => (by cases hheld), h.born⟩
    | goesOn | takes | offers | passesOn => exact ⟨h.later, h.claimed, h.born⟩
  | dispatches dispatching =>
    have hborn := h.born dispatching.ne_unborn
    cases dispatching with
    | turns | serves | misses | stops | closes | sweeps | leaves =>
      exact ⟨h.later, h.claimed, fun _ => hborn⟩

/-! ### Calls to stop -/

/-- The first call to stop is the only one that does anything, and how far it has come tells what
has become of the signal. -/
structure StopsInOrder (s : Supervisor σ) : Prop where
  later : FirstOnly (.returned false) s.stops
  stopping : s.stopping = true ↔ s.stops ≠ []
  idle : s.stops = [] → s.abandoned = false → s.signal = .held
  first : ∀ call rest, s.stops = call :: rest →
    call = .won ∧ s.signal = .held ∨ call = .signalling ∧ s.signal = .taken ∨
      call = .returned true ∧ s.signal = .sent

private theorem StopsInOrder.append (h : StopsInOrder s) {call : StopCall}
    (hcall : s.stops = [] ∧ call = .won ∧ s.signal = .held ∨ s.stops ≠ [] ∧ call = .returned false)
    (hstops : s'.stops = s.stops ++ [call]) (hstopping : s'.stopping = true)
    (hsignal : s'.signal = s.signal) : StopsInOrder s' := by
  have hne : s'.stops ≠ [] := by
    rw [hstops]
    exact List.concat_ne_nil call s.stops
  have hlater : FirstOnly (.returned false) (s.stops ++ [call]) := by
    rcases hcall with ⟨hnil, -⟩ | ⟨-, rfl⟩
    · rw [hnil]
      exact List.forall_mem_nil _
    · exact h.later.append
  refine ⟨hstops ▸ hlater, iff_of_true hstopping hne, fun hnil => absurd hnil hne, ?_⟩
  intro first rest hfirst
  rw [hsignal]
  rw [hstops] at hfirst
  rcases hcall with ⟨hnil, rfl, hheld⟩ | ⟨hbefore, -⟩
  · rw [hnil] at hfirst
    cases hfirst
    exact .inl ⟨rfl, hheld⟩
  · obtain ⟨first', rest', hrest'⟩ := List.exists_cons_of_ne_nil hbefore
    rw [hrest'] at hfirst
    cases hfirst
    exact h.first _ _ hrest'

private theorem StopsInOrder.set (h : StopsInOrder s) {k : Nat} {call call' : StopCall}
    (hat : s.stops[k]? = some call) (hne : call ≠ .returned false)
    (hstops : s'.stops = s.stops.set k call') (hstopping : s'.stopping = s.stopping)
    (hcall : call' = .signalling ∧ s'.signal = .taken ∨
      call' = .returned true ∧ s'.signal = .sent) : StopsInOrder s' := by
  obtain ⟨rest, hrest, hset⟩ := h.later.exists_set hat hne
  have hlater := h.later
  have hasked : s.stopping = true := h.stopping.2 (hrest ▸ List.cons_ne_nil call rest)
  rw [hrest] at hlater
  rw [hset] at hstops
  refine ⟨?_, ?_, ?_, ?_⟩
  · rw [hstops]
    exact hlater
  · rw [hstops, hstopping]
    exact iff_of_true hasked (List.cons_ne_nil call' rest)
  · intro hnil
    rw [hstops] at hnil
    cases hnil
  · intro first rest' hfirst
    rw [hstops] at hfirst
    cases hfirst
    exact .inr hcall

/-- A stop call that has won finds the signal in its place. -/
theorem StopsInOrder.signal_of_won (h : StopsInOrder s) {k : Nat}
    (hat : s.stops[k]? = some .won) : s.signal = .held := by
  obtain ⟨rest, hrest, -⟩ := h.later.exists_set hat (by decide)
  rcases h.first _ _ hrest with ⟨-, hsignal⟩ | ⟨hcall, -⟩ | ⟨hcall, -⟩
  · exact hsignal
  · cases hcall
  · cases hcall

/-- A stop call that signals has taken the signal. -/
theorem StopsInOrder.signal_of_signalling (h : StopsInOrder s) {k : Nat}
    (hat : s.stops[k]? = some .signalling) : s.signal = .taken := by
  obtain ⟨rest, hrest, -⟩ := h.later.exists_set hat (by decide)
  rcases h.first _ _ hrest with ⟨hcall, -⟩ | ⟨-, hsignal⟩ | ⟨hcall, -⟩
  · cases hcall
  · exact hsignal
  · cases hcall

/-- The signal was sent once a call to stop has returned that it did so. -/
theorem StopsInOrder.signal_of_returned (h : StopsInOrder s) (hmem : .returned true ∈ s.stops) :
    s.signal = .sent := by
  obtain ⟨k, hat⟩ := List.getElem?_of_mem hmem
  obtain ⟨rest, hrest, -⟩ := h.later.exists_set hat (by decide)
  rcases h.first _ _ hrest with ⟨hcall, -⟩ | ⟨hcall, -⟩ | ⟨-, hsignal⟩
  · cases hcall
  · cases hcall
  · exact hsignal

/-- Once all calls to stop have returned, the first of them has sent the signal. -/
theorem StopsInOrder.returned_of_all (h : StopsInOrder s) (hne : s.stops ≠ [])
    (hall : ∀ call ∈ s.stops, ∃ sent, call = .returned sent) : .returned true ∈ s.stops := by
  obtain ⟨first, rest, hrest⟩ := List.exists_cons_of_ne_nil hne
  obtain ⟨sent, rfl⟩ := hall first (hrest ▸ List.mem_cons_self)
  rcases h.first _ _ hrest with ⟨hcall, -⟩ | ⟨hcall, -⟩ | ⟨hcall, -⟩
  · cases hcall
  · cases hcall
  · rw [hrest, hcall]
    exact List.mem_cons_self

/-- All stop calls have returned. -/
private theorem exists_of_callsReturned (h : s.callsReturned = true) :
    ∀ call ∈ s.stops, ∃ sent, call = .returned sent := by
  simp only [callsReturned, Bool.and_eq_true, List.all_eq_true] at h
  intro call hmem
  have hreturned := h.1.2 call hmem
  cases call with
  | returned sent => exact ⟨sent, rfl⟩
  | won | signalling => cases hreturned

private theorem StopsInOrder.call (h : StopsInOrder s) (hcall : Call s s') : StopsInOrder s' := by
  cases hcall with
  | asks present stopping =>
    have hnil : s.stops = [] := by
      by_contra hne
      rw [h.stopping.2 hne] at stopping
      cases stopping
    exact h.append (.inl ⟨hnil, rfl, h.idle hnil present⟩) rfl rfl rfl
  | asksAgain present stopping =>
    exact h.append (.inr ⟨h.stopping.1 stopping, rfl⟩) rfl stopping rfl
  | takesSignal call => exact h.set call (by decide) rfl rfl (.inl ⟨rfl, rfl⟩)
  -- the call that has won is the first one, and nobody else takes the signal
  | missesSignal call signal => exact absurd (h.signal_of_won call) signal
  | sendsSignal call => exact h.set call (by decide) rfl rfl (.inr ⟨rfl, rfl⟩)
  | abandons present returned =>
    refine ⟨h.later, h.stopping, fun _ habandoned => (by cases habandoned), ?_⟩
    intro first rest hrest
    have hne : s.stops ≠ [] := by
      rintro hnil
      rw [hnil] at hrest
      cases hrest
    -- no call is on its way any more, so there is no signal that could get lost
    have hsent := h.signal_of_returned (h.returned_of_all hne (exists_of_callsReturned returned))
    have hfirst := h.first first rest hrest
    simp only [hsent, reduceCtorEq, if_false] at hfirst ⊢
    exact hfirst
  | claims | startsAgain | spawnsAcceptor | spawnsDispatcher | hasStarted | waits | hasWaited =>
    exact ⟨h.later, h.stopping, h.idle, h.first⟩

/-- Stop calls stay in order. -/
private theorem StopsInOrder.change [Sink σ] (h : StopsInOrder s) (hchange : Change s s') :
    StopsInOrder s' := by
  rcases hchange.call_or_keeps with hcall | ⟨hstops, hstopping, hsignal, habandoned⟩
  · exact h.call hcall
  · refine ⟨?_, ?_, ?_, ?_⟩
    · rw [hstops]
      exact h.later
    · rw [hstops, hstopping]
      exact h.stopping
    · rw [hstops, hsignal, habandoned]
      exact h.idle
    · rw [hstops, hsignal]
      exact h.first

/-! ### Runs -/

/-- **Calls are in order** wherever a run has led. -/
theorem inOrder_of_reaches [Sink σ] {capacity limit : Nat} {sink : σ}
    (hreach : Reaches act (.new capacity limit sink) s) : StartsInOrder s ∧ StopsInOrder s := by
  refine hreach.invariant (P := fun s : Supervisor σ => StartsInOrder s ∧ StopsInOrder s) ?_ ?_
  · rintro s a s' ⟨hstarts, hstops⟩ hact
    exact ⟨hstarts.change (.of_act hact), hstops.change (.of_act hact)⟩
  · refine ⟨⟨List.forall_mem_nil _, fun hne => absurd rfl hne, fun hborn => absurd rfl hborn⟩,
      List.forall_mem_nil _, ?_, fun _ _ => rfl, fun _ _ hnil => (by cases hnil)⟩
    exact iff_of_false Bool.false_ne_true fun hne => hne rfl

end Supervisor

end ForwardIntake
