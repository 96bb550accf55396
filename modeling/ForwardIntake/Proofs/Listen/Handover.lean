import ForwardIntake.Proofs.Connection.Ledger
import ForwardIntake.Proofs.Listen.Once
import ForwardIntake.Proofs.Listen.Sweeping

/-!
# From the listener to the sessions

A connection that the acceptor has taken changes hands three times: the acceptor holds it, the queue
holds it, and then there is a session for it; or it is dropped on the way.  No connection is lost
and none has two places (`Supervisor.Handed`), and until the first one is dropped the places follow
each other in the order of taking.  So the sessions are in this order too.

Connections are dropped by an acceptor that ends while it holds one, and by the dispatcher where it
leaves the queue.  Both need a dispatcher that is on its way out (`Supervisor.Leaving`), and that
takes the signal (`connections_handed_over`).
-/

namespace ForwardIntake

/-! ### Sessions are counted -/

namespace Hub

variable {σ : Type} [Sink σ] {h h' : Hub σ}

/-- Every session was counted when it was made. -/
def Tallied (h : Hub σ) : Prop :=
  h.stats.accepted = UInt64.ofNat h.sessions.length

/-- The counter of clients keeps up with the sessions. -/
private theorem Tallied.change (ht : Tallied h) (hchange : Change h h') : Tallied h' := by
  rw [Tallied] at ht ⊢
  cases hchange with
  | accepts peer feed =>
    rw [accept_sessions, List.length_append, List.length_singleton, UInt64.ofNat_add, ← ht]
    rfl
  | advances place step =>
    obtain ⟨sets, -, hstats⟩ := step.counted
    rw [settle_sessions, List.length_set, hstats]
    exact ht
  | discards | aborts =>
    rw [settle_sessions, List.length_set]
    exact ht
  | feeds =>
    rw [feed_sessions, List.length_modify]
    exact ht
  | cancels | sweeps | rests => exact ht

private theorem tallied_of_reaches {limit : Nat} {sink : σ}
    (hreach : Reaches act (.new limit sink) h) :
    Tallied h :=
  hreach.invariant (fun ht hact => ht.change (.of_act hact)) rfl

end Hub

namespace Supervisor

variable {σ : Type} {s s' : Supervisor σ}

/-! ### On the way out -/

/-- The dispatcher goes out only where the signal has arrived, and nobody else asks the acceptor to
close the listener. -/
structure Leaving (s : Supervisor σ) : Prop where
  arrived : s.dispatcher = .closing ∨ s.dispatcher.hasClosed = true → s.signal.arrived = true
  asked : s.closeRequested = true → s.dispatcher.hasClosed = true
  lost : s.signal = .lost → s.abandoned = true

/-- The signal is lost with the input only. -/
private theorem Call.lost (h : Call s s') (hlost : s.signal = .lost → s.abandoned = true)
    (hlost' : s'.signal = .lost) : s'.abandoned = true := by
  cases h with
  | takesSignal | sendsSignal => cases hlost'
  | abandons => rfl
  | claims | startsAgain | spawnsAcceptor | spawnsDispatcher | hasStarted | asks | asksAgain
  | missesSignal | waits | hasWaited => exact hlost hlost'

/-- The acceptor stays open as long as nobody has asked it to leave. -/
private theorem Leaving.change [Sink σ] (h : Leaving s) (hstarts : StartsInOrder s)
    (hchange : Change s s') : Leaving s' := by
  have hlost : s'.signal = .lost → s'.abandoned = true := by
    rcases hchange.call_or_keeps with hcall | ⟨-, -, hsignal, habandoned⟩
    · exact hcall.lost h.lost
    · rw [hsignal, habandoned]
      exact h.lost
  rcases hchange.aside_or_dispatching with haside | hdispatching
  · rcases haside.dispatcher with hsame | ⟨hborn, k, call⟩
    · refine ⟨fun hclosing => haside.signal (h.arrived ?_), fun hasked => ?_, hlost⟩
      · rw [← hsame]
        exact hclosing
      · rw [hsame]
        exact h.asked (haside.closeRequested ▸ hasked)
    · refine ⟨fun hclosing => ?_, fun hasked => ?_, hlost⟩
      · rw [hborn] at hclosing
        simp only [Dispatcher.hasClosed, reduceCtorEq, or_self] at hclosing
      · have hclosed := h.asked (haside.closeRequested ▸ hasked)
        rw [hstarts.unborn_of_call call (.inr rfl)] at hclosed
        cases hclosed
  · have hbefore (hopen : s.dispatcher.hasClosed = false) : ¬ s.closeRequested = true := by
      intro hasked
      rw [h.asked hasked] at hopen
      cases hopen
    cases hdispatching with
    | turns dispatcher | serves dispatcher | misses dispatcher =>
      refine ⟨fun hclosing => ?_, fun hasked => ?_, hlost⟩
      · simp only [Dispatcher.hasClosed, reduceCtorEq, or_self] at hclosing
      · exact absurd hasked (hbefore (by rw [dispatcher]; rfl))
    | stops dispatcher signal =>
      refine ⟨fun _ => signal, fun hasked => ?_, hlost⟩
      have hopen : s.dispatcher.hasClosed = false := by
        rcases dispatcher with ⟨accepting, dispatcher⟩ | ⟨dispatcher, -⟩
        · rw [dispatcher]
          rfl
        · rw [dispatcher]
          rfl
      exact absurd hasked (hbefore hopen)
    | closes dispatcher => exact ⟨fun _ => h.arrived (.inl dispatcher), fun _ => rfl, hlost⟩
    | sweeps dispatcher | leaves dispatcher =>
      have harrived := h.arrived (.inr (by rw [dispatcher]; rfl))
      exact ⟨fun _ => harrived, fun _ => rfl, hlost⟩

/-! ### Places -/

/-- The connections between the listener and their sessions, oldest first. -/
def underway (s : Supervisor σ) : List Nat :=
  (s.queue ++ s.acceptor.held).map (·.serial)

/-- Each connection that was taken is in one place, and in order until the first one is dropped. -/
structure Handed (capacity : Nat) (s : Supervisor σ) : Prop where
  ascending : (s.accepted ++ s.backlog.map (·.serial)).Pairwise (· < ·)
  known : ∀ serial ∈ s.accepted ++ s.backlog.map (·.serial), serial < s.connected
  placed : s.accepted.Perm (s.served ++ (s.underway ++ s.dropped))
  order : s.dropped = [] → s.accepted = s.served ++ s.underway
  first : s.served <+: s.accepted
  sessions : s.served.length = s.hub.sessions.length
  capacity_eq : s.capacity = capacity
  room : s.queue.length ≤ capacity
  dropped : s.dropped ≠ [] → s.dispatcher.hasClosed = true

variable {capacity limit : Nat} {sink : σ}

/-- Some connections may be dropped on the way, and some taken out of the listener. -/
private theorem Handed.drop (h : Handed capacity s) (gone : List Nat)
    (haccepted : s'.accepted = s.accepted)
    (hbacklog : (s'.backlog.map (·.serial)).Sublist (s.backlog.map (·.serial)))
    (hconnected : s'.connected = s.connected) (hplaced : s.underway.Perm (s'.underway ++ gone))
    (hroom : s'.queue.length ≤ capacity) (hserved : s'.served = s.served)
    (hdropped : s'.dropped = s.dropped ++ gone) (hcapacity : s'.capacity = s.capacity)
    (hsessions : s'.hub.sessions.length = s.hub.sessions.length)
    (hsame : gone = [] → s'.underway = s.underway)
    (hclosed : gone ≠ [] ∨ s.dispatcher.hasClosed = true → s'.dispatcher.hasClosed = true) :
    Handed capacity s' := by
  have hsub : (s'.accepted ++ s'.backlog.map (·.serial)).Sublist
      (s.accepted ++ s.backlog.map (·.serial)) := by
    rw [haccepted]
    exact hbacklog.append_left _
  refine ⟨h.ascending.sublist hsub, fun serial hmem => ?_, ?_, fun hnone => ?_, ?_, ?_,
    hcapacity.trans h.capacity_eq, hroom, fun hne => hclosed ?_⟩
  · rw [hconnected]
    exact h.known serial (hsub.subset hmem)
  · rw [haccepted, hserved, hdropped]
    have hgone : (s.underway ++ s.dropped).Perm (s'.underway ++ (gone ++ s.dropped)) := by
      rw [← List.append_assoc]
      exact hplaced.append_right _
    exact h.placed.trans ((hgone.trans (List.perm_append_comm.append_left _)).append_left _)
  · obtain ⟨hbefore, hgone⟩ := List.append_eq_nil_iff.1 (hdropped ▸ hnone)
    rw [haccepted, hserved, hsame hgone]
    exact h.order hbefore
  · rw [haccepted, hserved]
    exact h.first
  · rw [hserved, hsessions]
    exact h.sessions
  · by_contra hneither
    rw [not_or, not_not] at hneither
    obtain ⟨hgone, hopen⟩ := hneither
    rw [hdropped, hgone, List.append_nil] at hne
    exact hopen (h.dropped hne)

/-- What leaves the connections where they are. -/
private theorem Handed.keep (h : Handed capacity s) (haccepted : s'.accepted = s.accepted)
    (hbacklog : (s'.backlog.map (·.serial)).Sublist (s.backlog.map (·.serial)))
    (hconnected : s'.connected = s.connected)
    (hqueue : s'.queue.map (·.serial) = s.queue.map (·.serial))
    (hheld : s'.acceptor.held.map (·.serial) = s.acceptor.held.map (·.serial))
    (hserved : s'.served = s.served) (hdropped : s'.dropped = s.dropped)
    (hcapacity : s'.capacity = s.capacity)
    (hsessions : s'.hub.sessions.length = s.hub.sessions.length)
    (hclosed : s.dispatcher.hasClosed = true → s'.dispatcher.hasClosed = true) :
    Handed capacity s' := by
  have hunderway : s'.underway = s.underway := by
    rw [underway, underway, List.map_append, List.map_append, hqueue, hheld]
  have hlength : s'.queue.length = s.queue.length := by
    rw [← List.length_map, hqueue, List.length_map]
  refine h.drop [] haccepted hbacklog hconnected ?_ (hlength ▸ h.room) hserved ?_ hcapacity
    hsessions (fun _ => hunderway) fun hor => hclosed (hor.resolve_left fun hne => hne rfl)
  · rw [hunderway, List.append_nil]
  · rw [hdropped, List.append_nil]

/-- Calls hand nobody over. -/
private theorem Handed.call (h : Handed capacity s) (hstarts : StartsInOrder s)
    (hunclaimed : Unclaimed s) (hcall : Call s s') : Handed capacity s' := by
  cases hcall with
  | spawnsAcceptor call =>
    refine h.keep rfl (.refl _) rfl rfl ?_ rfl rfl rfl rfl id
    rw [hunclaimed (List.mem_of_getElem? call)]
    rfl
  | spawnsDispatcher call =>
    refine h.keep rfl (.refl _) rfl rfl rfl rfl rfl rfl rfl fun hclosed => ?_
    rw [hstarts.unborn_of_call call (.inr rfl)] at hclosed
    cases hclosed
  | abandons =>
    refine h.keep rfl ?_ rfl rfl rfl rfl rfl rfl rfl id
    simp only
    split
    · exact List.nil_sublist _
    · exact .refl _
  | claims | startsAgain | hasStarted | asks | asksAgain | takesSignal | missesSignal
  | sendsSignal | waits | hasWaited =>
    exact h.keep rfl (.refl _) rfl rfl rfl rfl rfl rfl rfl id

/-- The acceptor takes callers from the backlog to the queue. -/
private theorem Handed.accepting (h : Handed capacity s) (hleaving : Leaving s)
    (haccepting : Accepting s s') : Handed capacity s' := by
  cases haccepting with
  | goesOn acceptor | offers acceptor =>
    exact h.keep rfl (.refl _) rfl rfl (by simp [acceptor]) rfl rfl rfl rfl id
  | @takes caller backlog acceptor waiting =>
    have hsplit : s.accepted ++ s.backlog.map (·.serial) =
        s.accepted ++ [caller.serial] ++ backlog.map (·.serial) := by
      rw [waiting, List.map_cons, List.append_assoc, List.singleton_append]
    have hunderway : (s.queue ++ [caller]).map (·.serial) = s.underway ++ [caller.serial] := by
      simp [underway, acceptor]
    refine ⟨hsplit ▸ h.ascending, hsplit ▸ h.known, ?_, fun hnone => ?_, ?_, h.sessions,
      h.capacity_eq, h.room, h.dropped⟩
    · have hlast := h.placed.append_right [caller.serial]
      rw [List.append_assoc, List.append_assoc] at hlast
      refine hlast.trans (List.Perm.append_left _ ?_)
      change List.Perm _ ((s.queue ++ [caller]).map (·.serial) ++ s.dropped)
      rw [hunderway, List.append_assoc]
      exact List.perm_append_comm.append_left _
    · change s.accepted ++ _ = s.served ++ (s.queue ++ [caller]).map (·.serial)
      rw [hunderway, h.order hnone, List.append_assoc]
    · exact h.first.trans (List.prefix_append _ _)
  | @passesOn caller acceptor dispatcher room =>
    have hunderway : (s.queue ++ [caller] ++ []).map Caller.serial = s.underway := by
      simp [underway, acceptor]
    refine h.drop [] rfl (.refl _) rfl ?_ ?_ rfl (List.append_nil _).symm rfl rfl
      (fun _ => hunderway) fun hor => hor.resolve_left fun hne => hne rfl
    · rw [List.append_nil]
      exact .of_eq hunderway.symm
    · rw [List.length_append, List.length_singleton, ← h.capacity_eq]
      exact room
  | ends running reason =>
    have hunderway : s.endAcceptor.underway = s.queue.map (·.serial) :=
      congrArg (List.map Caller.serial) (List.append_nil s.queue)
    refine h.drop (s.acceptor.held.map (·.serial)) rfl (List.nil_sublist _) rfl ?_ h.room rfl
      rfl rfl rfl (fun hnone => ?_) fun hor => ?_
    · rw [hunderway, underway, List.map_append]
    · rw [hunderway, underway, List.map_append, hnone, List.append_nil]
    · rcases hor with hheld | hclosed
      · -- an acceptor that waits for a connection holds none
        rcases reason with asked | acceptor | dispatcher
        · exact hleaving.asked asked
        · rw [acceptor] at hheld
          exact absurd rfl hheld
        · change s.dispatcher.hasClosed = true
          rw [dispatcher]
          rfl
      · exact hclosed

/-- The dispatcher takes callers from the queue to the hub. -/
private theorem Handed.dispatching (h : Handed capacity s) (hdispatching : Dispatching s s') :
    Handed capacity s' := by
  have hopen (hopen : s.dispatcher.hasClosed = false) : s.dropped = [] := by
    by_contra hne
    rw [h.dropped hne] at hopen
    cases hopen
  cases hdispatching with
  | turns dispatcher | misses dispatcher =>
    refine h.keep rfl (.refl _) rfl rfl rfl rfl rfl rfl rfl fun hclosed => ?_
    rw [dispatcher] at hclosed
    cases hclosed
  | stops dispatcher =>
    refine h.keep rfl (.refl _) rfl rfl rfl rfl rfl rfl rfl fun hclosed => ?_
    rcases dispatcher with ⟨accepting, dispatcher⟩ | ⟨dispatcher, -⟩
    · rw [dispatcher] at hclosed
      cases hclosed
    · rw [dispatcher] at hclosed
      cases hclosed
  | closes | sweeps => exact h.keep rfl (.refl _) rfl rfl rfl rfl rfl rfl rfl fun _ => rfl
  | @serves caller queue dispatcher waiting =>
    have hnone := hopen (by rw [dispatcher]; rfl)
    have hunderway : s.underway =
        caller.serial :: (queue ++ s.acceptor.held).map (·.serial) := by
      rw [underway, waiting, List.cons_append, List.map_cons]
    have horder : s.accepted =
        s.served ++ [caller.serial] ++ (queue ++ s.acceptor.held).map (·.serial) := by
      rw [h.order hnone, hunderway, List.append_assoc, List.singleton_append]
    have hroom := h.room
    rw [waiting, List.length_cons] at hroom
    refine ⟨h.ascending, h.known, ?_, fun _ => horder, ?_, ?_, h.capacity_eq,
      Nat.le_of_succ_le hroom, fun hne => absurd hnone hne⟩
    · rw [hnone, List.append_nil]
      exact .of_eq horder
    · exact horder ▸ List.prefix_append _ _
    · rw [List.length_append, h.sessions, Hub.accept_sessions, List.length_append,
        List.length_singleton, List.length_singleton]
  | leaves dispatcher =>
    refine h.drop (s.queue.map (·.serial)) rfl (.refl _) rfl ?_ (Nat.zero_le _) rfl rfl rfl rfl
      (fun hnone => ?_) fun _ => rfl
    · rw [underway, List.map_append]
      exact List.perm_append_comm
    · change s.acceptor.held.map (·.serial) = s.underway
      rw [underway, List.map_append, hnone, List.nil_append]

/-- Input from a client leaves it in its place. -/
private theorem Handed.feed (h : Handed capacity s) (serial : Nat) (f : Feed → Feed) :
    Handed capacity (s.feed serial f) := by
  exact h.keep (by simp) (by simp) (by simp) (by simp) (by simp) (by simp) (by simp) (by simp)
    (by simp) (by simp)

/-- Calls drop nobody. -/
private theorem Call.dropped_eq (h : Call s s') : s'.dropped = s.dropped := by
  cases h <;> rfl

/-- Callers are dropped behind a signal or with the input only. -/
private theorem sent_or_abandoned (hleaving : Leaving s) (hhanded : Handed capacity s)
    (hne : s.dropped ≠ []) : s.signal = .sent ∨ s.abandoned = true := by
  have harrived := hleaving.arrived (.inr (hhanded.dropped hne))
  cases hsignal : s.signal with
  | sent => exact .inl rfl
  | lost => exact .inr (hleaving.lost hsignal)
  | held | taken =>
    rw [hsignal] at harrived
    cases harrived

variable [Sink σ]

/-- **Connections stay handed over**, whatever happens. -/
private theorem Handed.change (h : Handed capacity s) (hstarts : StartsInOrder s)
    (hunclaimed : Unclaimed s) (hleaving : Leaving s) (hchange : Change s s') :
    Handed capacity s' := by
  cases hchange with
  | calls call => exact h.call hstarts hunclaimed call
  | connects peer =>
    let caller : Caller := ⟨s.connected, peer, .silent⟩
    have hnew : s.accepted ++ (s.backlog ++ [caller]).map (·.serial) =
        s.accepted ++ s.backlog.map (·.serial) ++ [s.connected] := by
      rw [List.map_append, List.append_assoc]
      rfl
    refine ⟨?_, fun serial hmem => ?_, h.placed, h.order, h.first, h.sessions, h.capacity_eq,
      h.room, h.dropped⟩
    · rw [hnew, List.pairwise_append]
      refine ⟨h.ascending, List.pairwise_singleton _ _, fun serial hmem last hlast => ?_⟩
      rw [List.mem_singleton.1 hlast]
      exact h.known serial hmem
    · rw [hnew] at hmem
      rcases List.mem_append.1 hmem with hmem | hmem
      · exact Nat.lt_succ_of_lt (h.known serial hmem)
      · rw [List.mem_singleton.1 hmem]
        exact Nat.lt_succ_self _
  | arrives serial | closes serial => exact h.feed serial _
  | accepts accepting => exact h.accepting hleaving accepting
  | dispatches dispatching => exact h.dispatching dispatching
  | advances session =>
    exact h.keep rfl (.refl _) rfl rfl rfl rfl rfl rfl (Hub.quiet_of_advance session).sessions id
  | aborts session =>
    exact h.keep rfl (.refl _) rfl rfl rfl rfl rfl rfl (Hub.quiet_of_abort session).sessions id

/-! ### Single actions -/

/-- A connection gets its session from the front of the queue. -/
private theorem Change.served (hchange : Change s s') : s'.served = s.served ∨
    ∃ caller queue, s.queue = caller :: queue ∧ s'.queue = queue ∧
      s'.served = s.served ++ [caller.serial] ∧ s'.hub = s.hub.accept caller.peer caller.feed := by
  rcases hchange.aside_or_dispatching with haside | hdispatching
  · exact .inl haside.served
  · cases hdispatching with
    | @serves caller queue dispatcher waiting => exact .inr ⟨caller, queue, waiting, rfl, rfl, rfl⟩
    | turns | misses | stops | closes | sweeps | leaves => exact .inl rfl

/-! ### Runs -/

/-- Connections are handed over in every run. -/
private theorem handed_of_reaches (hreach : Reaches act (.new capacity limit sink) s) :
    Leaving s ∧ Handed capacity s := by
  have hall : Reaches act (.new capacity limit sink) s ∧ Leaving s ∧ Handed capacity s := by
    refine hreach.invariant (P := fun s : Supervisor σ =>
      Reaches act (.new capacity limit sink) s ∧ Leaving s ∧ Handed capacity s) ?_
      ⟨.refl act _, ?_, ?_⟩
    · rintro s a s' ⟨hreach, hleaving, hhanded⟩ hact
      have hstarts := (inOrder_of_reaches hreach).1
      exact ⟨hreach.tail hact, hleaving.change hstarts (.of_act hact),
        hhanded.change hstarts (unclaimed_of_reaches hreach) hleaving (.of_act hact)⟩
    · refine ⟨fun hclosing => ?_, fun hasked => (by cases hasked), fun hlost => (by cases hlost)⟩
      rcases hclosing with hclosing | hclosing
      · cases hclosing
      · cases hclosing
    · exact ⟨List.Pairwise.nil, List.forall_mem_nil _, .refl _, fun _ => rfl, List.prefix_rfl, rfl,
        rfl, Nat.zero_le _, fun hne => absurd rfl hne⟩
  exact hall.2

/-- **No connection is lost and none is served twice.**

* The connections that the acceptor has taken are different ones, in the order of connecting, and
  each is in one place: the acceptor holds it, it is in the queue, there is a session for it, or it
  was dropped.
* Sessions are made in the order of taking; until a connection is dropped, those in the queue and
  the one that the acceptor holds come behind them in this order.
* There are as many sessions as connections that have one; their ids count up from 0, and as many
  clients were counted.
* The queue never holds more than it takes.
* A connection is dropped only after the signal was sent or the input was given up, and gets its
  session only from the front of the queue. -/
theorem connections_handed_over (hreach : Reaches act (.new capacity limit sink) s) :
    s.accepted.Pairwise (· < ·) ∧
    s.accepted.Perm (s.served ++ s.queue.map (·.serial) ++ s.acceptor.held.map (·.serial) ++
      s.dropped) ∧
    s.served <+: s.accepted ∧
    (s.dropped = [] →
      s.accepted = s.served ++ s.queue.map (·.serial) ++ s.acceptor.held.map (·.serial)) ∧
    s.served.length = s.hub.sessions.length ∧
    (∀ (i : Nat) (t : Session), s.hub.sessions[i]? = some t → t.id = UInt64.ofNat i) ∧
    s.hub.stats.accepted = UInt64.ofNat s.hub.sessions.length ∧
    s.queue.length ≤ capacity ∧
    (s.dropped ≠ [] → s.signal = .sent ∨ s.abandoned = true) ∧
    (∀ a s', s.act a = some s' →
      (∀ serial ∈ s'.dropped, serial ∉ s.dropped → s.signal = .sent ∨ s.abandoned = true) ∧
      (s'.served = s.served ∨ ∃ caller queue, s.queue = caller :: queue ∧ s'.queue = queue ∧
        s'.served = s.served ++ [caller.serial] ∧
        s'.hub = s.hub.accept caller.peer caller.feed)) := by
  obtain ⟨hleaving, hhanded⟩ := handed_of_reaches hreach
  have hhub := hub_of_reaches hreach
  have hplaces : s.served ++ s.underway =
      s.served ++ s.queue.map (·.serial) ++ s.acceptor.held.map (·.serial) := by
    rw [underway, List.map_append, List.append_assoc]
  refine ⟨(List.pairwise_append.1 hhanded.ascending).1, ?_, hhanded.first, ?_, hhanded.sessions,
    fun i t hat => ((Hub.numbered_of_reaches hhub).session i t hat).1, Hub.tallied_of_reaches hhub,
    hhanded.room, sent_or_abandoned hleaving hhanded, fun a s' hact => ⟨?_, ?_⟩⟩
  · rw [← hplaces, List.append_assoc]
    exact hhanded.placed
  · rw [← hplaces]
    exact hhanded.order
  · intro serial hmem hnot
    have hchange := Change.of_act hact
    obtain ⟨hleaving', hhanded'⟩ := handed_of_reaches (hreach.tail hact)
    have hwhy := sent_or_abandoned hleaving' hhanded' (List.ne_nil_of_mem hmem)
    rcases hchange.call_or_keeps with hcall | ⟨-, -, hsignal, habandoned⟩
    · exact absurd (hcall.dropped_eq ▸ hmem) hnot
    · rwa [hsignal, habandoned] at hwhy
  · exact (Change.of_act hact).served

/-- Three clients and a queue for one: the first one has its session, the second one is in the queue
and the acceptor holds the third one when the input is stopped.  The dispatcher leaves the queue
with the second one, and the acceptor gives up the third one. -/
theorem connections_handed_over_three :
    ∃ s t : Supervisor JsonLines, Reaches act (.new 1 8 ⟨.empty⟩) s ∧ s.served = [0] ∧
      s.queue.map (·.serial) = [1] ∧ s.acceptor.held.map (·.serial) = [2] ∧
      s.accepted = [0, 1, 2] ∧ s.queue.length ≤ 1 ∧ s.hub.stats.accepted = 1 ∧
      Reaches act s t ∧ t.served = [0] ∧ t.queue = [] ∧ t.acceptor.held = [] ∧
      t.accepted.Perm [0, 1, 2] ∧ t.dropped = [1, 2] ∧
      (t.signal = .sent ∨ t.abandoned = true) := by
  let before : List Action :=
    [.start, .stepStart 0, .stepStart 0, .stepStart 0, .connect "a", .connect "b", .connect "c"] ++
      .replicate 7 .stepAcceptor ++ .replicate 2 .stepDispatcher ++ .replicate 4 .stepAcceptor
  let after : List Action :=
    [.stop, .stepStop 0, .stepStop 0] ++ .replicate 4 .stepDispatcher ++ [.stepAcceptor]
  obtain ⟨s, hbefore, hserved, hqueue, hheld, hnone, hlength, t, hafter, hserved', hqueue', hheld',
      hdropped⟩ :
      ∃ s : Supervisor JsonLines, before.foldlM act (.new 1 8 ⟨.empty⟩) = some s ∧
        s.served = [0] ∧ s.queue.map (·.serial) = [1] ∧ s.acceptor.held.map (·.serial) = [2] ∧
        s.dropped = [] ∧ s.hub.sessions.length = 1 ∧
        ∃ t, after.foldlM act s = some t ∧ t.served = [0] ∧ t.queue = [] ∧ t.acceptor.held = [] ∧
          t.dropped = [1, 2] :=
    ⟨_, by cbv, rfl, rfl, rfl, rfl, rfl, _, by cbv, rfl, rfl, rfl, rfl⟩
  have hreach : Reaches act (.new 1 8 (⟨.empty⟩ : JsonLines)) s := .of_actions before hbefore
  have hreach' : Reaches act s t := .of_actions after hafter
  obtain ⟨-, -, -, horder, -, -, hcount, hroom, -⟩ := connections_handed_over hreach
  obtain ⟨-, hplaced, -, -, -, -, -, -, hwhy, -⟩ := connections_handed_over (hreach.trans hreach')
  rw [hserved, hqueue, hheld] at horder
  rw [hserved', hqueue', hheld', hdropped] at hplaced
  rw [hlength] at hcount
  refine ⟨s, t, hreach, hserved, hqueue, hheld, horder hnone, hroom, hcount, hreach', hserved',
    hqueue', hheld', hplaced, hdropped, hwhy ?_⟩
  rw [hdropped]
  exact List.cons_ne_nil _ _

end Supervisor

end ForwardIntake
