import ForwardIntake.Proofs.Connection.Running
import ForwardIntake.Proofs.Connection.Steps

/-!
# What passes through a hub

The sessions of a hub offer batches to its sink and read from their streams; what has passed leaves
no trace in the hub.  A ledger is a hub with an account of both (`Ledger.act`): the batches that the
sink has answered, and what the reads came to, each with the session that it belongs to.  A ledger
goes wherever its hub goes (`Ledger.hub_of_reaches`, `Ledger.exists_of_hub_reaches`).

A step of a session answers the batch in hand (`Session.Step.sink_eq`), and what it counts can be
told from the session before and behind it (`Session.Step.counted`).  What else happens in a hub
enters nothing (`Hub.Idle`).
-/

namespace ForwardIntake

namespace Session

variable {limit : Nat} {down : Bool} {s s' : Session}

/-! ### Steps -/

/-- The batch that was decoded and is not answered by the sink yet, if there is one. -/
def inHand (s : Session) : List Batch :=
  match s.phase with
  | .emitting batch => [batch]
  | _ => []

/-- What the read in progress comes to, if anything has arrived. -/
def arriving (s : Session) : List Arrival :=
  match s.phase with
  | .polling => s.feed.arrivals.take 1
  | _ => []

/-- Nothing arrives at a session that does not poll. -/
theorem arriving_of_ne (h : s.phase ≠ .polling) : s.arriving = [] := by
  rw [arriving]
  split
  · rename_i phase
    exact absurd phase h
  · rfl

/-- Nothing arrives where nothing is on its way. -/
theorem arriving_of_nil (arrived : s.feed.arrivals = []) : s.arriving = [] := by
  rw [arriving, arrived, List.take_nil]
  split
  · rfl
  · rfl

/-- A session that polls takes what comes first. -/
theorem arriving_of_cons {arrival : Arrival} {arrivals : List Arrival} (phase : s.phase = .polling)
    (arrived : s.feed.arrivals = arrival :: arrivals) : s.arriving = [arrival] := by
  simp only [arriving, phase, arrived, List.take_succ_cons, List.take_zero]

/-- A session has in hand what it has decoded. -/
private theorem Decodes.inHand_eq {sets : List RecordSet} (h : s.Decodes s' sets) :
    s'.inHand = sets.map ([·]) := by
  cases h with
  | skips | takes | fails => rfl

/-- A turn leaves in hand what it hands on. -/
theorem Turn.inHand_eq {sets : List RecordSet} (h : s.Turn s' sets) :
    s'.inHand = sets.map ([·]) := by
  cases h with
  | decodes decoded => exact decoded.inHand_eq
  | ends | waits | polls | retries => rfl

variable {σ : Type} [Sink σ] {sink sink' : σ} {stats stats' : Stats}

/-- A step answers the batch in hand, if there is one. -/
theorem Step.sink_eq (h : Step limit down s sink stats s' sink' stats') :
    sink' = Sink.emitAll sink s.inHand := by
  cases h with
  | delivers phase emitted | refuses phase emitted =>
    simp only [inHand, phase, Sink.emitAll, List.foldl_cons, List.foldl_nil, emitted]
  | opens phase | scans phase | begins phase | ends phase | endsEarly phase | breaksOff phase
  | receives phase | fails phase =>
    simp only [inHand, phase, Sink.emitAll, List.foldl_nil]

/-- **What a step counts**: the batch that the session has in hand behind it, of one record set, and
the bytes of the read that it ends. -/
theorem Step.counted (h : Step limit down s sink stats s' sink' stats') :
    ∃ sets : List RecordSet, s'.inHand = sets.map ([·]) ∧
      stats' = (stats.countSets sets).countBytes (s.arriving.map Arrival.size).sum := by
  cases h with
  | opens phase | delivers phase | refuses phase =>
    exact ⟨[], rfl, by simp [arriving, phase]⟩
  | scans phase => exact ⟨_, (turn_scan phase).inHand_eq, by simp [arriving, phase]⟩
  | begins phase => exact ⟨[], (turn_beginRead phase).inHand_eq, by simp [arriving, phase]⟩
  | ends phase arrived => exact ⟨_, turn_atEnd.inHand_eq, by simp [arriving_of_nil arrived]⟩
  | endsEarly phase arrived =>
    exact ⟨_, turn_atEnd.inHand_eq, by simp [arriving_of_cons phase arrived]⟩
  | breaksOff phase arrived => exact ⟨[], rfl, by simp [arriving_of_nil arrived]⟩
  | receives phase arrived => exact ⟨[], rfl, by simp [arriving_of_cons phase arrived]⟩
  | @fails error arrivals phase arrived =>
    exact ⟨[], (turn_atFault (s := s.withArrivals arrivals) phase error).inHand_eq,
      by simp [arriving_of_cons phase arrived]⟩

/-! ### What is no step -/

/-- All that can become of a session without a step of its own. -/
inductive Idles (s : Session) : Session → Prop where
  | isFed (f : Feed → Feed) : Idles s { s with feed := f s.feed }
  | discards (phase : s.phase = .created) : Idles s { s with phase := .discarded }
  | breaksOff (phase : s.phase = .polling) : Idles s (s.finish .shutdown)

private theorem Idles.refl (s : Session) : s.Idles s :=
  .isFed fun feed => feed

private theorem Idles.inHand_eq (h : s.Idles s') : s'.inHand = s.inHand := by
  cases h with
  | isFed => rfl
  | discards phase | breaksOff phase => simp [inHand, phase]

end Session

namespace Hub

variable {σ : Type} {h h' h'' : Hub σ} {i : Nat} {s s' : Session}

/-- The batches that the sessions have in hand. -/
def inHand (h : Hub σ) : List Batch :=
  h.sessions.flatMap Session.inHand

/-- No session makes a step, and nothing passes. -/
structure Idle (h h' : Hub σ) : Prop where
  limit : h'.limit = h.limit
  sink : h'.sink = h.sink
  entries : h'.stats.entries = h.stats.entries
  records : h'.stats.records = h.stats.records
  bytes : h'.stats.bytes = h.stats.bytes
  inHand : h'.inHand = h.inHand
  session : ∀ (i : Nat) (t : Session), h'.sessions[i]? = some t →
    (∃ s, h.sessions[i]? = some s ∧ s.Idles t) ∨ i = h.sessions.length ∧ t.phase = .created

private theorem inHand_congr
    (h : ∀ j : Nat, h'.sessions[j]?.map Session.inHand = h''.sessions[j]?.map Session.inHand) :
    h'.inHand = h''.inHand := by
  rw [inHand, inHand, List.flatMap, List.flatMap]
  congr 1
  refine List.ext_getElem? fun j => ?_
  rw [List.getElem?_map, List.getElem?_map, h]

/-- Settling a session that keeps what it has in hand keeps it for the hub. -/
private theorem inHand_settle (hat : h.sessions[i]? = some s) (hsame : s'.inHand = s.inHand) :
    (h.settle i s').inHand = h.inHand := by
  refine inHand_congr fun j => ?_
  rw [settle_sessions, List.getElem?_set]
  split
  · rename_i hij
    subst hij
    rw [if_pos (List.getElem?_eq_some_iff.1 hat).1, hat, Option.map_some, Option.map_some, hsame]
  · rfl

/-- The hub idles if one of its sessions does. -/
private theorem Idle.of_settle (hat : h.sessions[i]? = some s) (hidles : s.Idles s') :
    Idle h (h.settle i s') := by
  refine ⟨rfl, rfl, rfl, rfl, rfl, inHand_settle hat hidles.inHand_eq, fun j t hj => .inl ?_⟩
  rw [settle_sessions, List.getElem?_set] at hj
  split at hj
  · rename_i hij
    subst hij
    split at hj
    · cases hj
      exact ⟨s, hat, hidles⟩
    · cases hj
  · exact ⟨t, hj, .refl t⟩

/-- It idles when the registry alone changes. -/
private theorem Idle.of_registry (registry : Registry) : Idle h { h with registry } :=
  ⟨rfl, rfl, rfl, rfl, rfl, rfl, fun _ t hat => .inl ⟨t, hat, .refl t⟩⟩

/-- A new client has nothing in hand. -/
private theorem idle_accept (peer : String) (feed : Feed) (h : Hub σ) :
    Idle h (h.accept peer feed) := by
  refine ⟨rfl, rfl, rfl, rfl, rfl, ?_, fun j t hj => ?_⟩
  · rw [inHand, accept_sessions, List.flatMap_append]
    exact List.append_nil _
  · rw [accept_sessions, List.getElem?_append] at hj
    split at hj
    · exact .inl ⟨t, hj, .refl t⟩
    · obtain ⟨hlt, hnew⟩ := List.getElem?_eq_some_iff.1 hj
      refine .inr ⟨?_, ?_⟩
      · rw [List.length_singleton] at hlt
        omega
      · rw [← hnew, List.getElem_singleton]
        rfl

/-- Input from a client is not in hand. -/
private theorem idle_feed (i : Nat) (f : Feed → Feed) (h : Hub σ) : Idle h (h.feed i f) := by
  refine ⟨rfl, rfl, rfl, rfl, rfl, ?_, fun j t hj => .inl ?_⟩
  · refine inHand_congr fun j => ?_
    rw [feed_sessions, List.getElem?_modify, Option.map_eq_map, Option.map_map]
    refine Option.map_congr fun s _ => ?_
    simp only [Function.comp_apply]
    split
    · rfl
    · rfl
  · rw [feed_sessions, List.getElem?_modify] at hj
    obtain ⟨s, hs, rfl⟩ := Option.map_eq_some_iff.1 hj
    refine ⟨s, hs, ?_⟩
    split
    · exact .isFed f
    · exact .refl s

variable [Sink σ]

/-- Whatever is no step of a session enters nothing. -/
private theorem Idle.of_act {a : Action} (hact : h.act a = some h') (hstep : ∀ i, a ≠ .advance i) :
    Idle h h' := by
  cases a with
  | advance i => exact absurd rfl (hstep i)
  | accept peer feed =>
    cases hact
    exact idle_accept peer feed h
  | discard i =>
    obtain ⟨s, hat, hdiscard⟩ := Option.bind_eq_some_iff.1 hact
    split at hdiscard
    · rename_i phase
      cases hdiscard
      exact .of_settle hat (.discards phase)
    · cases hdiscard
  | abort i =>
    obtain ⟨s, hat, habort⟩ := Option.bind_eq_some_iff.1 hact
    split at habort
    · rename_i phase
      split at habort
      · cases habort
        exact .of_settle hat (.breaksOff phase)
      · cases habort
    · cases habort
  | arrive i arrival =>
    cases hact
    exact idle_feed i _ h
  | close i =>
    cases hact
    exact idle_feed i _ h
  | shutdown i =>
    cases hact
    rw [shutdown]
    split
    · exact .of_registry _
    · exact .of_registry _
  | shutdownAll =>
    cases hact
    exact .of_registry _

end Hub

/-! ### Ledgers -/

/-- A batch that a session offered to the sink, and what became of it. -/
structure Offer where
  /-- The place of the session. -/
  session : Nat
  batch : Batch
  answer : Emission

/-- A hub with an account of what has passed. -/
structure Ledger (σ : Type) where
  hub : Hub σ
  /-- The batches that the sink has answered, oldest first. -/
  offers : List Offer
  /-- What the reads came to, oldest first, each with the place of its session. -/
  reads : List (Nat × Arrival)

namespace Ledger

open Session

variable {σ : Type}

/-- The ledger of a hub without sessions. -/
def new (limit : Nat) (sink : σ) : Ledger σ :=
  ⟨.new limit sink, [], []⟩

/-- The batches that the sink has answered, oldest first. -/
def batches (l : Ledger σ) : List Batch :=
  l.offers.map (·.batch)

/-- The offers of one session. -/
def offersOf (i : Nat) (l : Ledger σ) : List Offer :=
  l.offers.filter (·.session == i)

/-- What the reads of one session came to. -/
def readsOf (i : Nat) (l : Ledger σ) : List Arrival :=
  (l.reads.filter (·.1 == i)).map (·.2)

variable [Sink σ]

/-- The offers that a session makes in a step. -/
def offering (i : Nat) (s : Session) (l : Ledger σ) : List Offer :=
  s.inHand.map fun batch => ⟨i, batch, (Sink.emit l.hub.sink batch).1⟩

/-- A step offers what the session has in hand. -/
theorem batch_offering (i : Nat) (s : Session) (l : Ledger σ) :
    (l.offering i s).map (·.batch) = s.inHand := by
  rw [offering, List.map_map]
  exact List.map_id _

/-- The ledger after an action. -/
def act (l : Ledger σ) (a : Hub.Action) : Option (Ledger σ) :=
  (l.hub.act a).map fun hub =>
    match a with
    | .advance i =>
      match l.hub.sessions[i]? with
      | some s => ⟨hub, l.offers ++ l.offering i s, l.reads ++ s.arriving.map (i, ·)⟩
      | none => { l with hub }
    | _ => { l with hub }

variable {l l' : Ledger σ} {limit : Nat} {sink : σ}

/-- New offers are added for the session that steps. -/
theorem offersOf_append_offering (i j : Nat) (s : Session)
    (h : l'.offers = l.offers ++ l.offering j s) :
    l'.offersOf i = l.offersOf i ++ if j = i then l.offering j s else [] := by
  rw [offersOf, h, List.filter_append, offersOf]
  split
  · rename_i hji
    simp [offering, List.filter_map, Function.comp_def, hji]
  · rename_i hji
    simp [offering, List.filter_map, Function.comp_def, hji]

omit [Sink σ] in
/-- New reads are added for the session that steps. -/
theorem readsOf_append_arriving (i j : Nat) (s : Session)
    (h : l'.reads = l.reads ++ s.arriving.map (j, ·)) :
    l'.readsOf i = l.readsOf i ++ if j = i then s.arriving else [] := by
  rw [readsOf, h, List.filter_append, List.map_append, readsOf]
  split
  · rename_i hji
    simp [List.filter_map, Function.comp_def, hji]
  · rename_i hji
    simp [List.filter_map, Function.comp_def, hji]

/-- All that an action can make of a ledger. -/
inductive Change (l : Ledger σ) : Ledger σ → Prop where
  | advances {i : Nat} {s s' : Session} {sink : σ} {stats : Stats}
    (place : l.hub.sessions[i]? = some s)
    (step : Step l.hub.limit (l.hub.registry.isCancelled s.token) s l.hub.sink l.hub.stats
      s' sink stats) :
    Change l ⟨({ l.hub with sink, stats } : Hub σ).settle i s', l.offers ++ l.offering i s,
      l.reads ++ s.arriving.map (i, ·)⟩
  | idles {hub : Hub σ} (change : Hub.Change l.hub hub) (idle : Hub.Idle l.hub hub) :
    Change l { l with hub }

/-- Every action of the ledger is a change. -/
theorem Change.of_act {a : Hub.Action} (hact : l.act a = some l') : Change l l' := by
  obtain ⟨hub, hhub, hl'⟩ := Option.map_eq_some_iff.1 hact
  cases a with
  | advance i =>
    obtain ⟨s, place, hadvance⟩ := Option.bind_eq_some_iff.1 hhub
    obtain ⟨⟨s', sink, stats⟩, hstep, rfl⟩ := Option.map_eq_some_iff.1 hadvance
    simp only [place] at hl'
    cases hl'
    exact .advances place (.of_step hstep)
  | accept | discard | abort | arrive | close | shutdown | shutdownAll =>
    cases hl'
    exact .idles (.of_act hhub) (.of_act hhub (by simp))

/-- The ledger follows the hub. -/
theorem hub_of_act {a : Hub.Action} (hact : l.act a = some l') : l.hub.act a = some l'.hub := by
  obtain ⟨hub, hhub, rfl⟩ := Option.map_eq_some_iff.1 hact
  rw [hhub]
  congr 1
  split
  · split
    · rfl
    · rfl
  · rfl

/-- A session that advances takes a step, and the ledger notes what it offers and reads. -/
theorem exists_step_of_act {i : Nat} {s : Session} (hact : l.act (.advance i) = some l')
    (hat : l.hub.sessions[i]? = some s) :
    ∃ s', Step l.hub.limit (l.hub.registry.isCancelled s.token) s l.hub.sink l.hub.stats
        s' l'.hub.sink l'.hub.stats ∧
      l'.offers = l.offers ++ l.offering i s ∧ l'.reads = l.reads ++ s.arriving.map (i, ·) := by
  obtain ⟨hub, hhub, hl'⟩ := Option.map_eq_some_iff.1 hact
  obtain ⟨u, place, hadvance⟩ := Option.bind_eq_some_iff.1 hhub
  obtain ⟨⟨s', sink, stats⟩, hstep, rfl⟩ := Option.map_eq_some_iff.1 hadvance
  obtain rfl : s = u := Option.some.inj (hat.symm.trans place)
  simp only [hat] at hl'
  cases hl'
  exact ⟨s', .of_step hstep, rfl, rfl⟩

/-- A change of the ledger is one of the hub. -/
theorem Change.hub (h : Change l l') : Hub.Change l.hub l'.hub := by
  cases h with
  | advances place step => exact .advances place step
  | idles change => exact change

/-- **What becomes of a session and its account**: it makes a step, which is entered, or it makes
none and nothing is entered for it. -/
theorem Change.session {i : Nat} {s : Session} (h : Change l l')
    (hat : l.hub.sessions[i]? = some s) :
    (∃ t, l'.hub.sessions[i]? = some t ∧ s.Idles t ∧ l'.offersOf i = l.offersOf i ∧
      l'.readsOf i = l.readsOf i) ∨
    ∃ s', Step l.hub.limit (l.hub.registry.isCancelled s.token) s l.hub.sink l.hub.stats
        s' l'.hub.sink l'.hub.stats ∧
      l'.hub.sessions[i]? = some s' ∧ l'.offersOf i = l.offersOf i ++ l.offering i s ∧
      l'.readsOf i = l.readsOf i ++ s.arriving := by
  obtain ⟨hlt, -⟩ := List.getElem?_eq_some_iff.1 hat
  cases h with
  | @advances j u s' sink stats place step =>
    by_cases hij : j = i
    · subst hij
      obtain rfl : s = u := Option.some.inj (hat.symm.trans place)
      refine .inr ⟨s', step, List.getElem?_set_self hlt, ?_, ?_⟩
      · rw [offersOf_append_offering j j s rfl, if_pos rfl]
      · rw [readsOf_append_arriving j j s rfl, if_pos rfl]
    · refine .inl ⟨s, (List.getElem?_set_ne hij).trans hat, .refl s, ?_, ?_⟩
      · rw [offersOf_append_offering i j u rfl, if_neg hij, List.append_nil]
      · rw [readsOf_append_arriving i j u rfl, if_neg hij, List.append_nil]
  | idles change idle =>
    have hat' := List.getElem?_eq_getElem (Nat.lt_of_lt_of_le hlt change.length_le)
    refine .inl ⟨_, hat', ?_, rfl, rfl⟩
    rcases idle.session i _ hat' with ⟨u, hu, hidles⟩ | ⟨hi, -⟩
    · obtain rfl : s = u := Option.some.inj (hat.symm.trans hu)
      exact hidles
    · omega

/-- A session that is not there yet comes without an account. -/
theorem Change.new_session {i : Nat} (h : Change l l') (hat : l.hub.sessions[i]? = none) :
    l'.offersOf i = l.offersOf i ∧ l'.readsOf i = l.readsOf i ∧
      ∀ t, l'.hub.sessions[i]? = some t → t.phase = .created := by
  cases h with
  | @advances j u s' sink stats place step =>
    have hji : j ≠ i := by
      rintro rfl
      rw [hat] at place
      cases place
    refine ⟨?_, ?_, fun t hat' => ?_⟩
    · rw [offersOf_append_offering i j u rfl, if_neg hji, List.append_nil]
    · rw [readsOf_append_arriving i j u rfl, if_neg hji, List.append_nil]
    · rw [Hub.settle, List.getElem?_set_ne hji, hat] at hat'
      cases hat'
  | idles change idle =>
    refine ⟨rfl, rfl, fun t hat' => ?_⟩
    rcases idle.session i t hat' with ⟨u, hu, -⟩ | ⟨-, hcreated⟩
    · rw [hat] at hu
      cases hu
    · exact hcreated

/-- **The hub runs along.** -/
theorem hub_of_reaches (h : Reaches act l l') : Reaches Hub.act l.hub l'.hub :=
  h.part (·.hub) fun hact => .inr ⟨_, hub_of_act hact⟩

/-- A ledger can be kept of every run. -/
theorem exists_of_hub_reaches {hub : Hub σ} (h : Reaches Hub.act l.hub hub) :
    ∃ l', Reaches act l l' ∧ l'.hub = hub := by
  refine h.invariant (P := fun hub => ∃ l', Reaches act l l' ∧ l'.hub = hub) ?_
    ⟨l, .refl act l, rfl⟩
  rintro _ a hub' ⟨l', hreach, rfl⟩ hact
  have hact' : l'.act a = (some hub').map _ := congrArg (Option.map _) hact
  refine ⟨_, hreach.tail hact', ?_⟩
  cases a with
  | advance i =>
    simp only
    split
    · rfl
    · rfl
  | accept | discard | abort | arrive | close | shutdown | shutdownAll => rfl

/-- The sink was offered the batches of the ledger, and nothing else. -/
theorem sink_of_reaches (hreach : Reaches act (.new limit sink) l) :
    l.hub.sink = Sink.emitAll sink l.batches := by
  refine hreach.invariant
    (P := fun l : Ledger σ => l.hub.sink = Sink.emitAll sink l.batches) ?_ rfl
  intro l a l' hsink hact
  cases Change.of_act hact with
  | @advances i s s' sink' stats place step =>
    have hsink' : sink' = Sink.emitAll (Sink.emitAll sink l.batches) s.inHand :=
      step.sink_eq.trans (congrArg (Sink.emitAll · s.inHand) hsink)
    rw [batches, List.map_append, batch_offering]
    exact hsink'.trans (List.foldl_append ..).symm
  | idles change idle => exact idle.sink.trans hsink

end Ledger

end ForwardIntake
