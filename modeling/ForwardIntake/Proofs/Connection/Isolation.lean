import ForwardIntake.Proofs.Connection.Counting
import ForwardIntake.Proofs.Connection.Solo

/-!
# Sessions are isolated

The sessions of a hub share its registry, its counters and its sink, so any of them might hear of
the others.  In a calm run, in which nobody is shut down or given up (`Ledger.calm`), they do not:
on a sink that takes everything each session goes the way of the solo session on its own stream, and
what it counts is its share of the counters (`Ledger.Apart`).  This is kept when a client comes,
when any session makes a step, and when more comes on a stream.

A stream is what its reads have come to and what is still to be read (`Ledger.streamOf`), which a
step of the session does not change.  So at rest, where no session can go further, each of them has
come to what its stream comes to alone, and the counters depend on nothing but the streams
(`Ledger.sessions_are_isolated`).  Every calm run can be brought to rest (`Ledger.exists_rest`).
-/

namespace ForwardIntake

/-- More may come on a stream that has not ended, and it may end. -/
def Feed.Grows (f g : Feed) : Prop :=
  ∃ more, g.arrivals = f.arrivals ++ more ∧ (f.ended = true → more = [] ∧ g.ended = true)

namespace Ledger

open Session

variable {σ : Type} {l l' : Ledger σ} {limit : Nat} {sink : σ} {i : Nat}

/-! ### Calm runs -/

/-- The stream of a session: what its reads came to, and what is still to be read. -/
def streamOf (i : Nat) (l : Ledger σ) : Feed :=
  match l.hub.sessions[i]? with
  | some s => ⟨l.readsOf i ++ s.feed.arrivals, s.feed.ended⟩
  | none => .silent

/-- The stream of a client is what was read of it and what is yet to be read. -/
private theorem streamOf_of_some {s : Session} (hat : l.hub.sessions[i]? = some s) :
    l.streamOf i = ⟨l.readsOf i ++ s.feed.arrivals, s.feed.ended⟩ := by
  rw [streamOf, hat]

/-- The stream of a session depends on the session and on its reads. -/
private theorem streamOf_congr (hsession : l'.hub.sessions[i]? = l.hub.sessions[i]?)
    (hreads : l'.readsOf i = l.readsOf i) : l'.streamOf i = l.streamOf i := by
  rw [streamOf, streamOf, hsession, hreads]

/-- The streams of all sessions, in the order of the sessions. -/
def streams (l : Ledger σ) : List Feed :=
  (List.range l.hub.sessions.length).map fun i => l.streamOf i

/-- Whether an action keeps the calm: it shuts down and gives up nobody, and brings nothing behind
the end of a stream. -/
def isCalm (l : Ledger σ) : Hub.Action → Bool
  | .accept _ _ => true
  | .advance _ => true
  | .arrive i _ => l.hub.sessions[i]?.all fun s => !s.feed.ended
  | .close _ => true
  | _ => false

variable [Sink σ]

/-- The ledger after an action that keeps the calm; none after any other. -/
def calm (l : Ledger σ) (a : Hub.Action) : Option (Ledger σ) :=
  if l.isCalm a then l.act a else none

/-- The ledger after a step of a session. -/
def stepped (i : Nat) (s s' : Session) (sink : σ) (stats : Stats) (l : Ledger σ) : Ledger σ :=
  ⟨({ l.hub with sink, stats } : Hub σ).settle i s', l.offers ++ l.offering i s,
    l.reads ++ s.arriving.map (i, ·)⟩

/-- All that an action can make of a ledger while it is calm. -/
inductive Calm (l : Ledger σ) : Ledger σ → Prop where
  | accepts (peer : String) (feed : Feed) : Calm l { l with hub := l.hub.accept peer feed }
  | advances {i : Nat} {s s' : Session} {sink : σ} {stats : Stats}
    (place : l.hub.sessions[i]? = some s)
    (step : s.step l.hub.limit (l.hub.registry.isCancelled s.token) l.hub.sink l.hub.stats =
      some (s', sink, stats)) :
    Calm l (l.stepped i s s' sink stats)
  | feeds (i : Nat) (f : Feed → Feed)
    (grows : ∀ s, l.hub.sessions[i]? = some s → s.feed.Grows (f s.feed)) :
    Calm l { l with hub := l.hub.feed i f }

private theorem Calm.of_calm {a : Hub.Action} (h : l.calm a = some l') : Calm l l' := by
  rw [calm] at h
  split at h
  · rename_i hcalm
    obtain ⟨hub, hhub, hl'⟩ := Option.map_eq_some_iff.1 h
    cases a with
    | accept peer feed =>
      cases hhub
      cases hl'
      exact .accepts peer feed
    | advance i =>
      obtain ⟨s, place, hadvance⟩ := Option.bind_eq_some_iff.1 hhub
      obtain ⟨⟨s', sink, stats⟩, hstep, rfl⟩ := Option.map_eq_some_iff.1 hadvance
      simp only [place] at hl'
      cases hl'
      exact .advances place hstep
    | arrive i arrival =>
      cases hhub
      cases hl'
      refine .feeds i _ fun s hat => ⟨[arrival], rfl, fun hended => ?_⟩
      rw [isCalm, hat, Option.all_some, hended] at hcalm
      cases hcalm
    | close i =>
      cases hhub
      cases hl'
      exact .feeds i _ fun s hat => ⟨[], (List.append_nil _).symm, fun _ => ⟨rfl, rfl⟩⟩
    | discard | abort | shutdown | shutdownAll => cases hcalm
  · cases h

/-- It is also something that happens. -/
private theorem act_of_calm {a : Hub.Action} (h : l.calm a = some l') : l.act a = some l' := by
  rw [calm] at h
  split at h
  · exact h
  · cases h

/-! ### Steps -/

section Stepped

variable {s s' : Session} {after : σ} {stats : Stats}

private theorem sessions_stepped_self (place : l.hub.sessions[i]? = some s) :
    (l.stepped i s s' after stats).hub.sessions[i]? = some s' :=
  List.getElem?_set_self (List.getElem?_eq_some_iff.1 place).1

private theorem sessions_stepped_of_ne {j : Nat} (hij : i ≠ j) :
    (l.stepped i s s' after stats).hub.sessions[j]? = l.hub.sessions[j]? :=
  List.getElem?_set_ne hij

private theorem length_sessions_stepped :
    (l.stepped i s s' after stats).hub.sessions.length = l.hub.sessions.length :=
  List.length_set

/-- The offers of a step are those of its session. -/
private theorem offersOf_stepped (j : Nat) : (l.stepped i s s' after stats).offersOf j =
    l.offersOf j ++ if i = j then l.offering i s else [] :=
  offersOf_append_offering j i s rfl

private theorem readsOf_stepped (j : Nat) : (l.stepped i s s' after stats).readsOf j =
    l.readsOf j ++ if i = j then s.arriving else [] :=
  readsOf_append_arriving j i s rfl

/-- A step moves what it reads from the stream to the account, so that the stream of the session is
the same. -/
private theorem streamOf_stepped (place : l.hub.sessions[i]? = some s)
    (step : Step l.hub.limit (l.hub.registry.isCancelled s.token) s l.hub.sink l.hub.stats s' after
      stats) (j : Nat) : (l.stepped i s s' after stats).streamOf j = l.streamOf j := by
  by_cases hij : i = j
  · subst hij
    rw [streamOf_of_some (sessions_stepped_self place), streamOf_of_some place, readsOf_stepped,
      if_pos rfl, step.feed, List.append_assoc]
  · refine streamOf_congr (sessions_stepped_of_ne hij) ?_
    rw [readsOf_stepped, if_neg hij, List.append_nil]

/-- A step leaves all streams. -/
private theorem streams_stepped (place : l.hub.sessions[i]? = some s)
    (step : Step l.hub.limit (l.hub.registry.isCancelled s.token) s l.hub.sink l.hub.stats s' after
      stats) : (l.stepped i s s' after stats).streams = l.streams := by
  rw [streams, length_sessions_stepped, streams]
  exact List.map_congr_left fun j _ => streamOf_stepped place step j

end Stepped

/-! ### What sessions have done -/

open Finset in
/-- Every session has gone the solo way on its stream, and the counters are the shares of the
sessions together. -/
structure Apart (limit : Nat) (l : Ledger σ) (shares : Nat → Stats) : Prop where
  limit_eq : l.hub.limit = limit
  quiet : l.hub.registry.cancelled = []
  accepts : Sink.Accepts l.hub.sink
  beyond : ∀ i, l.hub.sessions[i]? = none → l.offersOf i = [] ∧ l.readsOf i = []
  solo : ∀ (i : Nat) (s : Session), l.hub.sessions[i]? = some s →
    Reaches (Solo.next limit) (.begin (l.streamOf i))
      ⟨s.bare, (l.offersOf i).map (·.batch), shares i⟩
  stats : l.hub.stats = ∑ i ∈ range l.hub.sessions.length, shares i

variable {shares : Nat → Stats}

/-- A new client has its own share. -/
private theorem Apart.accept (h : Apart limit l shares) (peer : String) (feed : Feed) :
    Apart limit { l with hub := l.hub.accept peer feed }
      (Function.update shares l.hub.sessions.length Stats.zero.countClient) := by
  have hlength : (l.hub.accept peer feed).sessions.length = l.hub.sessions.length + 1 := by
    rw [Hub.accept_sessions, List.length_append, List.length_singleton]
  have hold {i : Nat} (hlt : i < l.hub.sessions.length) :
      (l.hub.accept peer feed).sessions[i]? = l.hub.sessions[i]? := List.getElem?_append_left hlt
  have hnew : (l.hub.accept peer feed).sessions[l.hub.sessions.length]? =
      some (.new l.hub.registry.next ⟨l.hub.registry.issued⟩ feed) := List.getElem?_concat_length
  refine ⟨h.limit_eq, h.quiet, h.accepts, fun i hat => h.beyond i ?_, fun i s hat => ?_, ?_⟩
  · rw [List.getElem?_eq_none_iff] at hat ⊢
    rw [hlength] at hat
    exact Nat.le_of_succ_le hat
  · have hle : i < l.hub.sessions.length + 1 := hlength ▸ (List.getElem?_eq_some_iff.1 hat).1
    rcases Nat.lt_succ_iff_lt_or_eq.1 hle with hlt | rfl
    · have hstream : streamOf i { l with hub := l.hub.accept peer feed } = l.streamOf i :=
        streamOf_congr (hold hlt) rfl
      rw [hstream, Function.update_of_ne hlt.ne]
      exact h.solo i s ((hold hlt).symm.trans hat)
    · obtain rfl := Option.some.inj (hnew.symm.trans hat)
      obtain ⟨hoffers, hreads⟩ := h.beyond _ (List.getElem?_eq_none le_rfl)
      have hstream : streamOf l.hub.sessions.length { l with hub := l.hub.accept peer feed } =
          feed := by
        rw [streamOf_of_some hnew]
        exact congrArg (fun reads => Feed.mk (reads ++ feed.arrivals) feed.ended) hreads
      have hsent : (offersOf l.hub.sessions.length { l with hub := l.hub.accept peer feed }).map
          (·.batch) = [] := congrArg (List.map (·.batch)) hoffers
      rw [hstream, hsent, Function.update_self]
      exact .refl _ _
  · have hsum : ∑ i ∈ Finset.range l.hub.sessions.length,
        Function.update shares l.hub.sessions.length Stats.zero.countClient i =
          ∑ i ∈ Finset.range l.hub.sessions.length, shares i :=
      Finset.sum_congr rfl fun i hi => Function.update_of_ne (Finset.mem_range.1 hi).ne _ _
    rw [hlength, Finset.sum_range_succ, hsum, Function.update_self, ← h.stats]
    exact l.hub.stats.countClient_eq

/-- A step adds to the share of its session. -/
private theorem Apart.step {s s' : Session} {after : σ} {stats : Stats} (h : Apart limit l shares)
    (place : l.hub.sessions[i]? = some s)
    (step : s.step l.hub.limit (l.hub.registry.isCancelled s.token) l.hub.sink l.hub.stats =
      some (s', after, stats)) :
    Apart limit (l.stepped i s s' after stats)
      (Function.update shares i (shares i + s.gain s')) := by
  have hstep := Step.of_step step
  have hlt := (List.getElem?_eq_some_iff.1 place).1
  refine ⟨h.limit_eq, (Hub.cancelled_settle ..).trans h.quiet, ?_, fun j hat => ?_,
    fun j t hat => ?_, ?_⟩
  · change Sink.Accepts after
    rw [hstep.sink_eq]
    exact h.accepts.emitAll _
  · have hij : i ≠ j := by
      rintro rfl
      rw [sessions_stepped_self place] at hat
      cases hat
    rw [offersOf_stepped, readsOf_stepped, if_neg hij, if_neg hij, List.append_nil, List.append_nil]
    exact h.beyond j ((sessions_stepped_of_ne hij).symm.trans hat)
  · rw [streamOf_stepped place hstep, offersOf_stepped]
    by_cases hij : i = j
    · subst hij
      obtain rfl := Option.some.inj ((sessions_stepped_self place).symm.trans hat)
      rw [Hub.isCancelled_of_calm h.quiet, h.limit_eq] at step
      rw [if_pos rfl, List.map_append, batch_offering, Function.update_self]
      exact (h.solo i s place).tail (a := ()) (Solo.next_bare h.accepts step)
    · rw [if_neg hij, List.append_nil, Function.update_of_ne (Ne.symm hij)]
      exact h.solo j t ((sessions_stepped_of_ne hij).symm.trans hat)
  · have hmem := Finset.mem_range.2 hlt
    rw [length_sessions_stepped, Finset.sum_update_of_mem hmem, add_right_comm,
      ← Finset.sum_eq_add_sum_sdiff_singleton_of_mem hmem, ← h.stats]
    exact hstep.stats_eq

private theorem Apart.feed (h : Apart limit l shares) (i : Nat) (f : Feed → Feed)
    (grows : ∀ s, l.hub.sessions[i]? = some s → s.feed.Grows (f s.feed)) :
    Apart limit { l with hub := l.hub.feed i f } shares := by
  have hother {j : Nat} (hij : i ≠ j) : (l.hub.feed i f).sessions[j]? = l.hub.sessions[j]? :=
    List.getElem?_modify_ne _ _ hij
  refine ⟨h.limit_eq, h.quiet, h.accepts, fun j hat => h.beyond j ?_, fun j t hat => ?_, ?_⟩
  · rw [List.getElem?_eq_none_iff] at hat ⊢
    exact (List.length_modify ..).symm.trans_le hat
  · by_cases hij : i = j
    · subst hij
      rw [Hub.feed, List.getElem?_modify_eq] at hat
      obtain ⟨s, place, rfl⟩ := Option.map_eq_some_iff.1 hat
      obtain ⟨more, harrivals, hopen⟩ := grows s place
      have hfeed : f s.feed = ⟨s.feed.arrivals ++ more, (f s.feed).ended⟩ := by rw [← harrivals]
      have hstream : streamOf i { l with hub := l.hub.feed i f } =
          ⟨(l.streamOf i).arrivals ++ more, (f s.feed).ended⟩ := by
        have hat' : (l.hub.feed i f).sessions[i]? = some { s with feed := f s.feed } := by
          rw [Hub.feed, List.getElem?_modify_eq, place]
          rfl
        rw [streamOf_of_some hat', streamOf_of_some place, List.append_assoc, ← harrivals]
        rfl
      have hbare : s.bare.onward 0 ⟨0⟩ more (f s.feed).ended =
          bare { s with feed := f s.feed } := by
        rw [Session.onward, bare, hfeed]
        rfl
      rw [hstream, ← hbare]
      refine Solo.reaches_onward (h.solo i s place) more (f s.feed).ended fun hended => hopen ?_
      rw [streamOf_of_some place] at hended
      exact hended
    · have hstream : streamOf j { l with hub := l.hub.feed i f } = l.streamOf j :=
        streamOf_congr (hother hij) rfl
      rw [hstream]
      exact h.solo j t ((hother hij).symm.trans hat)
  · have hlength : (l.hub.feed i f).sessions.length = l.hub.sessions.length :=
      List.length_modify ..
    rw [hlength]
    exact h.stats

/-- Sessions are apart in every calm run. -/
private theorem apart_of_reaches (hsink : Sink.Accepts sink)
    (h : Reaches calm (.new limit sink) l) : ∃ shares, Apart limit l shares := by
  refine h.invariant (P := fun l : Ledger σ => ∃ shares, Apart limit l shares) ?_ ?_
  · rintro l a l' ⟨shares, hapart⟩ hact
    cases Calm.of_calm hact with
    | accepts peer feed => exact ⟨_, hapart.accept peer feed⟩
    | advances place step => exact ⟨_, hapart.step place step⟩
    | feeds i f grows => exact ⟨_, hapart.feed i f grows⟩
  · exact ⟨fun _ => 0, rfl, rfl, hsink, fun _ _ => ⟨rfl, rfl⟩, fun _ _ hat => (by cases hat), rfl⟩

/-! ### What sessions come to -/

section Outcomes

variable {s : Session}

/-- Offers come from sessions. -/
private theorem Apart.lt_of_mem_offers (h : Apart limit l shares) {offer : Offer}
    (hoffer : offer ∈ l.offers) : offer.session < l.hub.sessions.length := by
  by_contra hbeyond
  have hnone := (h.beyond _ (List.getElem?_eq_none (Nat.not_lt.1 hbeyond))).1
  have hmem := mem_offersOf.2 ⟨hoffer, rfl⟩
  rw [hnone] at hmem
  cases hmem

/-- A session on its way has offered the first of the batches that its stream comes to alone. -/
private theorem Apart.batches_prefix (h : Apart limit l shares)
    (hat : l.hub.sessions[i]? = some s) :
    (l.offersOf i).map (·.batch) <+: (Hub.alone limit (l.streamOf i)).sink.batches := by
  obtain ⟨t, -, halone, hrests⟩ := Hub.reaches_alone limit (l.streamOf i)
  exact Solo.batches_prefix (Solo.reaches_of_rests (h.solo i s hat) halone hrests)

/-- A session that can go no further has come to what its stream comes to alone. -/
private theorem Apart.eq_alone (h : Apart limit l shares) (hat : l.hub.sessions[i]? = some s)
    (hrests : l.hub.advance i = none) :
    (l.offersOf i).map (·.batch) = (Hub.alone limit (l.streamOf i)).sink.batches ∧
      l.hub.outcome? i = (Hub.alone limit (l.streamOf i)).outcome? 0 ∧
      shares i = (Hub.alone limit (l.streamOf i)).stats := by
  obtain ⟨t, hat', halone, hrests'⟩ := Hub.reaches_alone limit (l.streamOf i)
  have hreach := Solo.reaches_of_rests (h.solo i s hat) halone hrests'
  rw [Hub.advance_of_calm hat h.quiet, h.limit_eq, Option.map_eq_none_iff] at hrests
  have hsame := Solo.eq_of_rests hreach (Solo.next_bare_eq_none h.accepts hrests)
  obtain ⟨hsession, hbatches, hstats⟩ := (Solo.mk.injEq ..).mp hsame
  refine ⟨hbatches.symm, ?_, hstats.symm⟩
  rw [Hub.outcome?, Hub.outcome?, hat, hat', hsession]
  rfl

/-- A client whose input has ended has an outcome at rest. -/
private theorem Apart.exists_outcome (h : Apart limit l shares) (hat : l.hub.sessions[i]? = some s)
    (hrests : l.hub.advance i = none) (hended : (l.streamOf i).ended = true) :
    ∃ outcome, l.hub.outcome? i = some outcome := by
  rw [Hub.advance_of_calm hat h.quiet, Option.map_eq_none_iff] at hrests
  rw [streamOf_of_some hat] at hended
  have hover := isOver_of_step_eq_none h.accepts hrests hended
  have hkept : s.phase ≠ .discarded := Solo.phase_ne_discarded (h.solo i s hat)
  cases hphase : s.phase with
  | finished outcome => exact ⟨outcome, Hub.outcome?_eq_some_iff.2 ⟨s, hat, hphase⟩⟩
  | discarded => exact absurd hphase hkept
  | created | scanning | emitting | reading | polling =>
    rw [hphase] at hover
    cases hover

/-- The counters are the sums over the clients at rest. -/
private theorem Apart.stats_eq_sum (h : Apart limit l shares)
    (hrests : ∀ i, l.hub.advance i = none) :
    l.hub.stats = (l.streams.map fun feed => (Hub.alone limit feed).stats).sum := by
  have hshares : ∀ i ∈ Finset.range l.hub.sessions.length,
      shares i = (Hub.alone limit (l.streamOf i)).stats := fun i hi =>
    (h.eq_alone (List.getElem?_eq_getElem (Finset.mem_range.1 hi)) (hrests i)).2.2
  rw [h.stats, Finset.sum_congr rfl hshares, streams, List.map_map]
  rfl

end Outcomes

/-! ### Coming to rest -/

private theorem reaches_act_of_calm (h : Reaches calm l l') : Reaches act l l' :=
  h.part (fun l => l) fun hact => .inr ⟨_, act_of_calm hact⟩

/-- What the sessions have before them. -/
def potential (l : Ledger σ) : Nat :=
  ∑ i ∈ Finset.range l.hub.sessions.length, l.hub.potential i

section Stepped

variable {s s' : Session} {after : σ} {stats : Stats}

/-- What the hub does when a session can step. -/
private theorem advance_eq_stepped (place : l.hub.sessions[i]? = some s)
    (step : s.step l.hub.limit (l.hub.registry.isCancelled s.token) l.hub.sink l.hub.stats =
      some (s', after, stats)) :
    l.hub.advance i = some (l.stepped i s s' after stats).hub := by
  rw [Hub.advance, place, Option.bind_some, step]
  rfl

/-- What the ledger does then. -/
private theorem calm_eq_stepped (place : l.hub.sessions[i]? = some s)
    (step : s.step l.hub.limit (l.hub.registry.isCancelled s.token) l.hub.sink l.hub.stats =
      some (s', after, stats)) :
    l.calm (.advance i) = some (l.stepped i s s' after stats) := by
  rw [calm, if_pos (show l.isCalm (.advance i) = true from rfl), act, Hub.act,
    advance_eq_stepped place step]
  simp only [Option.map_some, place]
  rfl

/-- A step takes from what is left to do. -/
private theorem potential_stepped (place : l.hub.sessions[i]? = some s)
    (step : s.step l.hub.limit (l.hub.registry.isCancelled s.token) l.hub.sink l.hub.stats =
      some (s', after, stats)) :
    (l.stepped i s s' after stats).potential < l.potential := by
  have hless := Hub.potential_advance (advance_eq_stepped place step)
  have hlt := (List.getElem?_eq_some_iff.1 place).1
  rw [potential, length_sessions_stepped, potential]
  refine Finset.sum_lt_sum (fun j _ => ?_) ⟨i, Finset.mem_range.2 hlt, hless⟩
  by_cases hij : i = j
  · exact hij ▸ hless.le
  · rw [Hub.potential, sessions_stepped_of_ne hij, Hub.potential]

end Stepped

/-- All sessions can be brought to rest, and it takes nothing but their own steps. -/
private theorem exists_rest (l : Ledger σ) : ∃ l', Reaches calm l l' ∧ l'.streams = l.streams ∧
    ∀ i, l'.hub.advance i = none := by
  induction hpotential : l.potential using Nat.strong_induction_on generalizing l with
  | _ n ih =>
    by_cases hrests : ∀ i, l.hub.advance i = none
    · exact ⟨l, .refl _ _, rfl, hrests⟩
    · obtain ⟨i, hgoes⟩ := not_forall.1 hrests
      obtain ⟨hub, hadvance⟩ := Option.ne_none_iff_exists'.1 hgoes
      obtain ⟨s, place, hstep⟩ := Option.bind_eq_some_iff.1 hadvance
      obtain ⟨⟨s', after, stats⟩, step, -⟩ := Option.map_eq_some_iff.1 hstep
      obtain ⟨l', hreach, hstreams, hrests'⟩ :=
        ih _ (hpotential ▸ potential_stepped place step) _ rfl
      exact ⟨l', Reaches.trans (.tail (.refl _ _) (calm_eq_stepped place step)) hreach,
        hstreams.trans (streams_stepped place (.of_step step)), hrests'⟩

/-! ### Isolation -/

/-- **Sessions are isolated.**  In any calm run into a sink that takes everything, whatever comes on
the streams and in whatever order the sessions make their steps:

* A session has offered the first of the batches that its stream comes to alone.  One that can go no
  further has offered all of them and has the outcome that it has alone, and it does have one if its
  stream has ended.
* The sink was given the batches of all offers, oldest first, and each offer is one of a session.
* With some more steps of the sessions the run comes to rest on the same streams.
* At rest the counters are those of the streams alone, together, and they are the same after every
  other run that has come to rest on these streams. -/
theorem sessions_are_isolated (hsink : Sink.Accepts sink)
    (hreach : Reaches calm (.new limit sink) l) :
    (∀ i < l.hub.sessions.length,
      (l.offersOf i).map (·.batch) <+: (Hub.alone limit (l.streamOf i)).sink.batches ∧
      (l.hub.advance i = none →
        (l.offersOf i).map (·.batch) = (Hub.alone limit (l.streamOf i)).sink.batches ∧
        l.hub.outcome? i = (Hub.alone limit (l.streamOf i)).outcome? 0 ∧
        ((l.streamOf i).ended = true → ∃ outcome, l.hub.outcome? i = some outcome))) ∧
    (l.hub.sink = Sink.emitAll sink l.batches ∧
      ∀ offer ∈ l.offers, offer.session < l.hub.sessions.length) ∧
    (∃ l', Reaches calm l l' ∧ l'.streams = l.streams ∧ ∀ i, l'.hub.advance i = none) ∧
    ((∀ i, l.hub.advance i = none) →
      l.hub.stats = (l.streams.map fun feed => (Hub.alone limit feed).stats).sum ∧
      ∀ m : Ledger σ, Reaches calm (.new limit sink) m → (∀ i, m.hub.advance i = none) →
        m.streams.Perm l.streams → m.hub.stats = l.hub.stats) := by
  obtain ⟨shares, hapart⟩ := apart_of_reaches hsink hreach
  refine ⟨fun i hlt => ?_, ⟨sink_of_reaches (reaches_act_of_calm hreach), fun offer =>
    hapart.lt_of_mem_offers⟩, l.exists_rest, fun hrests => ⟨hapart.stats_eq_sum hrests, ?_⟩⟩
  · have hat := List.getElem?_eq_getElem hlt
    refine ⟨hapart.batches_prefix hat, fun hrests => ?_⟩
    obtain ⟨hbatches, houtcome, -⟩ := hapart.eq_alone hat hrests
    exact ⟨hbatches, houtcome, hapart.exists_outcome hat hrests⟩
  · intro m hreach' hrests' hperm
    obtain ⟨shares', hapart'⟩ := apart_of_reaches hsink hreach'
    rw [hapart.stats_eq_sum hrests, hapart'.stats_eq_sum hrests']
    exact (hperm.map _).sum_eq

/-- Four clients taking turns: the first sends a message, and one more later; the second sends a
malformed message and the third one too large a message, and the connection of the fourth is reset
behind its message. -/
theorem sessions_are_isolated_four :
    ∃ l : Ledger JsonLines, Reaches calm (.new 8 ⟨.empty⟩) l ∧ l.hub.sessions.length = 4 ∧
      (∀ i < 4, (l.offersOf i).map (·.batch) = (Hub.alone 8 (l.streamOf i)).sink.batches ∧
        l.hub.outcome? i = (Hub.alone 8 (l.streamOf i)).outcome? 0) ∧
      (l.offersOf 0).length = 2 ∧ l.hub.outcome? 0 = some .disconnected ∧
      l.hub.outcome? 2 = some (.tooLarge 8) ∧
      l.hub.sink = Sink.emitAll ⟨.empty⟩ l.batches ∧
      l.hub.stats = (l.streams.map fun feed => (Hub.alone 8 feed).stats).sum := by
  let event : Bytes := [0x93, 0xA1, 0x61, 0x00, 0x80]
  let actions : List Hub.Action :=
    [.accept "a" ⟨[.chunk event], false⟩, .accept "b" (.ofArrivals [.chunk [0xC1]]),
      .accept "c" (.ofArrivals [.chunk [0x93, 0xDB, 0x00, 0x00, 0x01, 0x00]]),
      .accept "d" (.ofArrivals [.chunk event, .fault ⟨.connectionReset, "reset"⟩])] ++
    (List.replicate 5 [0, 1, 2, 3]).flatten.map .advance ++
    [.arrive 0 (.chunk event), .close 0] ++ .replicate 4 (.advance 3) ++ .replicate 9 (.advance 0)
  obtain ⟨l, hactions, hlength, hrests, hoffers, hfirst, hthird⟩ :
      ∃ l : Ledger JsonLines, actions.foldlM calm (.new 8 ⟨.empty⟩) = some l ∧
        l.hub.sessions.length = 4 ∧ (∀ i < 4, (l.hub.advance i).isNone = true) ∧
        (l.offersOf 0).length = 2 ∧ l.hub.outcome? 0 = some .disconnected ∧
        l.hub.outcome? 2 = some (.tooLarge 8) :=
    ⟨_, by cbv, rfl, by decide, rfl, rfl, rfl⟩
  have hreach : Reaches calm (.new 8 (⟨.empty⟩ : JsonLines)) l := .of_actions actions hactions
  have hrests' (i : Nat) : l.hub.advance i = none := by
    by_cases hlt : i < 4
    · exact Option.isNone_iff_eq_none.1 (hrests i hlt)
    · rw [Hub.advance, List.getElem?_eq_none (hlength ▸ Nat.not_lt.1 hlt)]
      rfl
  obtain ⟨heach, ⟨hsink, -⟩, -, hstats⟩ :=
    sessions_are_isolated (JsonLines.accepts_of_faultless fun _ => rfl) hreach
  refine ⟨l, hreach, hlength, fun i hlt => ?_, hoffers, hfirst, hthird, hsink,
    (hstats hrests').1⟩
  obtain ⟨-, hlast⟩ := heach i (hlength ▸ hlt)
  obtain ⟨hbatches, houtcome, -⟩ := hlast (hrests' i)
  exact ⟨hbatches, houtcome⟩

end Ledger

end ForwardIntake
