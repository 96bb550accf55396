import ForwardIntake.Proofs.Connection.Ledger
import ForwardIntake.Sink.Quota

/-!
# What the counters count

All sessions of a hub share one set of counters.  Record sets are counted where a message is
decoded, and batches are offered to the sink in a step of their own, so the two can be apart by the
batches that sessions have in hand, and by nothing else (`Ledger.Counted`).

A session that the sink has refused a batch ends with that, whatever its buffer still holds
(`Ledger.Refused`), and what has ended makes no more steps.
-/

namespace ForwardIntake

/-- What the counters say after a decoding and a read. -/
private theorem Stats.countSets_countBytes (stats : Stats) (sets : List RecordSet) (n : Nat) :
    ((stats.countSets sets).countBytes n).entries = stats.entries + UInt64.ofNat sets.length ∧
      ((stats.countSets sets).countBytes n).records =
        stats.records + UInt64.ofNat (Batch.records sets) ∧
      ((stats.countSets sets).countBytes n).bytes = stats.bytes + UInt64.ofNat n :=
  ⟨rfl, rfl, rfl⟩

/-- The records of a batch are those of its record sets, taken one by one. -/
private theorem Batch.sum_records_singletons (sets : List RecordSet) :
    ((sets.map ([·])).map Batch.records).sum = Batch.records sets := by
  induction sets with
  | nil => rfl
  | cons set sets ih =>
    rw [List.map_cons, List.map_cons, List.sum_cons, ih]
    rfl

namespace Session

variable {σ : Type} [Sink σ] {limit : Nat} {down : Bool} {s s' : Session} {sink sink' : σ}
  {stats stats' : Stats}

/-! ### Whitespace -/

/-- A turn at whitespace comes to no batch. -/
private theorem Turn.inHand_of_separators {sets : List RecordSet} {n : Nat} (h : s.Turn s' sets)
    (hblank : Message.decode s.buffer = .separators n) : s'.inHand = [] := by
  cases h with
  | decodes decoded =>
    cases decoded with
    | skips | fails => rfl
    | takes message =>
      rw [hblank] at message
      cases message
  | ends | waits | polls | retries => rfl

/-- Whitespace comes to no batch. -/
private theorem Step.inHand_of_separators {n : Nat}
    (h : Step limit down s sink stats s' sink' stats')
    (hblank : Message.decode s.buffer = .separators n) : s'.inHand = [] := by
  cases h with
  | opens | delivers | refuses | breaksOff | receives => rfl
  | scans phase => exact (turn_scan phase).inHand_of_separators hblank
  | begins phase => exact (turn_beginRead phase).inHand_of_separators hblank
  | ends => exact turn_atEnd.inHand_of_separators hblank
  | @endsEarly arrivals =>
    exact (turn_atEnd (s := s.withArrivals arrivals)).inHand_of_separators hblank
  | @fails error arrivals phase =>
    exact (turn_atFault (s := s.withArrivals arrivals) phase error).inHand_of_separators hblank

/-! ### Refusals -/

/-- The session has not ended with a refusal. -/
def Unrefused (s : Session) : Prop :=
  ∀ error, s.phase ≠ .finished (.sink error)

/-- A turn is no refusal of the sink. -/
private theorem Turn.unrefused {sets : List RecordSet} (h : s.Turn s' sets) : s'.Unrefused := by
  intro error hphase
  cases h with
  | decodes decoded =>
    cases decoded with
    | skips | takes | fails => cases hphase
  | ends own => exact own error (Phase.finished.inj hphase)
  | waits | polls | retries => cases hphase

/-- A step ends with a refusal exactly if the sink has refused the batch in hand. -/
private theorem Step.refused_iff {error : SinkError}
    (h : Step limit down s sink stats s' sink' stats') :
    s'.phase = .finished (.sink error) ↔
      ∃ batch ∈ s.inHand, (Sink.emit sink batch).1 = .refused error := by
  have hother (hphase : ∀ batch, s.phase ≠ .emitting batch) (hs' : s'.Unrefused) :
      s'.phase = .finished (.sink error) ↔
        ∃ batch ∈ s.inHand, (Sink.emit sink batch).1 = .refused error := by
    have hnone : s.inHand = [] := by
      rw [inHand]
      split
      · rename_i batch phase
        exact absurd phase (hphase batch)
      · rfl
    simp [hnone, hs' error]
  cases h with
  | delivers phase emitted => simp [inHand, phase, emitted]
  | refuses phase emitted => simp [inHand, phase, emitted]
  | opens phase => exact hother (by simp [phase]) fun _ hphase => by cases hphase
  | scans phase => exact hother (by simp [phase]) (turn_scan phase).unrefused
  | begins phase => exact hother (by simp [phase]) (turn_beginRead phase).unrefused
  | ends phase => exact hother (by simp [phase]) turn_atEnd.unrefused
  | endsEarly phase => exact hother (by simp [phase]) turn_atEnd.unrefused
  | breaksOff phase => exact hother (by simp [phase]) fun _ hphase => by cases hphase
  | receives phase => exact hother (by simp [phase]) fun _ hphase => by cases hphase
  | @fails error arrivals phase =>
    exact hother (by simp [phase])
      (turn_atFault (s := s.withArrivals arrivals) phase error).unrefused

end Session

namespace Hub

variable {σ : Type} {h : Hub σ} {i : Nat} {s : Session}

/-- The outcome of a client is that of its finished session. -/
theorem outcome?_eq_some_iff {outcome : Outcome} :
    h.outcome? i = some outcome ↔
      ∃ s, h.sessions[i]? = some s ∧ s.phase = .finished outcome := by
  rw [outcome?, Option.bind_eq_some_iff]
  refine exists_congr fun s => and_congr_right fun _ => ?_
  split
  · rename_i outcome' phase
    rw [phase, Option.some.injEq, Phase.finished.injEq]
  · rename_i hphase
    exact ⟨fun hnone => (by cases hnone), fun phase => absurd phase (hphase outcome)⟩

/-- In the place of what one session had in hand comes what it has now. -/
private theorem inHand_settle_perm (hat : h.sessions[i]? = some s) (s' : Session) :
    (s.inHand ++ (h.settle i s').inHand).Perm (h.inHand ++ s'.inHand) := by
  obtain ⟨hlt, rfl⟩ := List.getElem?_eq_some_iff.1 hat
  have hnew : (h.settle i s').inHand.Perm
      (s'.inHand ++ (h.sessions.eraseIdx i).flatMap Session.inHand) :=
    (List.set_perm_cons_eraseIdx hlt s').flatMap_right Session.inHand
  have hold : (h.sessions[i].inHand ++ (h.sessions.eraseIdx i).flatMap Session.inHand).Perm
      h.inHand :=
    (List.getElem_cons_eraseIdx_perm hlt).flatMap_right Session.inHand
  refine (hnew.append_left _).trans ((List.perm_append_comm_assoc ..).trans ?_)
  exact (hold.append_left _).trans List.perm_append_comm

end Hub

namespace Ledger

open Session

variable {σ : Type} {l l' : Ledger σ}

/-! ### Counters -/

/-- The counters say what was decoded: the batches that the sink has answered and those in hand, of
one record set each; and what the reads came to. -/
structure Counted (l : Ledger σ) : Prop where
  single : ∀ batch ∈ l.batches ++ l.hub.inHand, ∃ set, batch = [set]
  entries : l.hub.stats.entries = UInt64.ofNat (l.batches ++ l.hub.inHand).length
  records : l.hub.stats.records =
    UInt64.ofNat ((l.batches ++ l.hub.inHand).map Batch.records).sum
  bytes : l.hub.stats.bytes = UInt64.ofNat (l.reads.map (·.2.size)).sum

variable [Sink σ]

omit [Sink σ] in
/-- One batch of one record set in hand, and the counters say so. -/
private theorem Counted.of_perm {sets : List RecordSet} {n : Nat} (h : Counted l)
    (hperm : (l'.batches ++ l'.hub.inHand).Perm (l.batches ++ l.hub.inHand ++ sets.map ([·])))
    (hreads : (l'.reads.map (·.2.size)).sum = (l.reads.map (·.2.size)).sum + n)
    (hstats : l'.hub.stats = (l.hub.stats.countSets sets).countBytes n) : Counted l' := by
  obtain ⟨hentries, hrecords, hbytes⟩ := l.hub.stats.countSets_countBytes sets n
  rw [← hstats] at hentries hrecords hbytes
  refine ⟨fun batch hmem => ?_, ?_, ?_, ?_⟩
  · rcases List.mem_append.1 (hperm.mem_iff.1 hmem) with hbefore | hnew
    · exact h.single batch hbefore
    · obtain ⟨set, -, rfl⟩ := List.mem_map.1 hnew
      exact ⟨set, rfl⟩
  · rw [hperm.length_eq, List.length_append, List.length_map, UInt64.ofNat_add, ← h.entries,
      hentries]
  · rw [(hperm.map Batch.records).sum_eq, List.map_append, List.sum_append,
      Batch.sum_records_singletons, UInt64.ofNat_add, ← h.records, hrecords]
  · rw [hreads, UInt64.ofNat_add, ← h.bytes, hbytes]

/-- The counters keep up with every change. -/
private theorem Counted.change (h : Counted l) (hchange : Change l l') : Counted l' := by
  cases hchange with
  | @advances i s s' sink stats place step =>
    obtain ⟨sets, hinHand, hstats⟩ := step.counted
    refine h.of_perm ?_ ?_ hstats
    · have hperm := Hub.inHand_settle_perm place s'
      simp only [batches, List.map_append, batch_offering, List.append_assoc]
      rw [← hinHand]
      exact hperm.append_left _
    · simp [Function.comp_def]
  | idles change idle =>
    refine ⟨?_, ?_, ?_, ?_⟩
    · rw [idle.inHand]
      exact h.single
    · rw [idle.inHand, idle.entries]
      exact h.entries
    · rw [idle.inHand, idle.records]
      exact h.records
    · rw [idle.bytes]
      exact h.bytes

/-! ### Refusals -/

/-- The sessions that have ended with a refusal are those whose last offer was refused. -/
def Refused (l : Ledger σ) : Prop :=
  ∀ (i : Nat) (error : SinkError), l.hub.outcome? i = some (.sink error) ↔
    ∃ batch, ⟨i, batch, .refused error⟩ ∈ l.offers

omit [Sink σ] in
/-- The offers of a session are its own. -/
theorem mem_offersOf {l : Ledger σ} {offer : Offer} {i : Nat} :
    offer ∈ l.offersOf i ↔ offer ∈ l.offers ∧ offer.session = i := by
  rw [offersOf, List.mem_filter, beq_iff_eq]

private theorem Refused.change (h : Refused l) (hchange : Change l l') : Refused l' := by
  intro i error
  have hmem (l : Ledger σ) : (∃ batch, ⟨i, batch, .refused error⟩ ∈ l.offers) ↔
      ∃ batch, ⟨i, batch, .refused error⟩ ∈ l.offersOf i := by
    simp only [mem_offersOf, and_true]
  rw [Hub.outcome?_eq_some_iff, hmem]
  by_cases hat : ∃ s, l.hub.sessions[i]? = some s
  · obtain ⟨s, hat⟩ := hat
    have hbefore := h i error
    rw [Hub.outcome?_eq_some_iff, hmem] at hbefore
    simp only [hat, Option.some.injEq, exists_eq_left'] at hbefore
    rcases hchange.session hat with ⟨t, hat', hidles, hoffers, -⟩ |
      ⟨s', step, hat', hoffers, -⟩
    · rw [hoffers, ← hbefore]
      simp only [hat', Option.some.injEq, exists_eq_left']
      cases hidles with
      | isFed => exact Iff.rfl
      | discards phase | breaksOff phase => simp [phase]
    · -- a session that makes a step was not refused before
      have hgoes := step.isOver_eq_false
      have hnone (batch : Batch) : ⟨i, batch, .refused error⟩ ∉ l.offersOf i := fun hmem' => by
        simp [hbefore.2 ⟨batch, hmem'⟩] at hgoes
      simp only [hat', Option.some.injEq, exists_eq_left', step.refused_iff, hoffers,
        List.mem_append, hnone, false_or, offering, List.mem_map, Offer.mk.injEq, true_and]
      refine exists_congr fun batch => ⟨?_, ?_⟩
      · rintro ⟨hbatch, hanswer⟩
        exact ⟨batch, hbatch, rfl, hanswer⟩
      · rintro ⟨_, hbatch, rfl, hanswer⟩
        exact ⟨hbatch, hanswer⟩
  · have hat' : l.hub.sessions[i]? = none := by
      rw [Option.eq_none_iff_forall_ne_some]
      exact fun s hat' => hat ⟨s, hat'⟩
    obtain ⟨hoffers, -, hcreated⟩ := hchange.new_session hat'
    have hbefore := h i error
    rw [Hub.outcome?_eq_some_iff, hmem] at hbefore
    simp only [hat', reduceCtorEq, false_and, exists_false, false_iff] at hbefore
    rw [hoffers]
    refine iff_of_false ?_ hbefore
    rintro ⟨t, hat'', hphase⟩
    rw [hcreated t hat''] at hphase
    cases hphase

/-! ### Runs -/

variable {limit : Nat} {sink : σ}

/-- The counters keep up in every run. -/
private theorem counted_of_reaches (hreach : Reaches act (.new limit sink) l) : Counted l := by
  refine hreach.invariant (fun h hact => h.change (.of_act hact)) ⟨?_, rfl, rfl, rfl⟩
  exact List.forall_mem_nil _

private theorem refused_of_reaches (hreach : Reaches act (.new limit sink) l) : Refused l := by
  refine hreach.invariant (P := Refused) (fun h hact => h.change (.of_act hact)) ?_
  intro i error
  refine iff_of_false ?_ ?_
  · rw [Hub.outcome?_eq_some_iff]
    rintro ⟨s, hat, -⟩
    simp [new] at hat
  · rintro ⟨batch, hmem⟩
    exact absurd hmem List.not_mem_nil

/-- A session that is over stays as it is, and nothing more is entered for it. -/
private theorem still_of_isOver {i : Nat} {s : Session} (hat : l.hub.sessions[i]? = some s)
    (hover : s.phase.isOver = true) (hreach : Reaches act l l') :
    ∃ t, l'.hub.sessions[i]? = some t ∧ t.phase = s.phase ∧ t.buffer = s.buffer ∧
      t.reads = s.reads ∧ l'.offersOf i = l.offersOf i ∧ l'.readsOf i = l.readsOf i := by
  refine hreach.invariant (P := fun l' : Ledger σ => ∃ t, l'.hub.sessions[i]? = some t ∧
    t.phase = s.phase ∧ t.buffer = s.buffer ∧ t.reads = s.reads ∧
    l'.offersOf i = l.offersOf i ∧ l'.readsOf i = l.readsOf i) ?_
    ⟨s, hat, rfl, rfl, rfl, rfl, rfl⟩
  rintro l₁ a l₂ ⟨t, hat₁, hphase, hbuffer, hreads, hoffersOf, hreadsOf⟩ hact
  rw [← hphase] at hover
  rcases (Change.of_act hact).session hat₁ with ⟨u, hat₂, hidles, hoffers, hread⟩ | ⟨u, step, -⟩
  · cases hidles with
    | isFed f =>
      exact ⟨_, hat₂, hphase, hbuffer, hreads, hoffers.trans hoffersOf, hread.trans hreadsOf⟩
    | discards phase | breaksOff phase => simp [phase] at hover
  · simp [step.isOver_eq_false] at hover

/-- **The counters are those of what the sink was given.**  However many sessions there are, in
whatever order they make their steps, and whatever their streams bring and the sink answers:

* `entries` is the number of batches that the sink has answered, refused or not, and of those in
  hand, which are decoded and not answered yet; each of them is one record set.  `records` is the
  number of the records in them, and `bytes` that of the bytes that were read.  The sink was offered
  the answered batches, and nothing else.
* A session with whitespace in front counts nothing in its next step and offers nothing.
* A session ends with an error of the sink exactly if it was refused a batch with that error.
* From then on it makes no step, so that it reads, decodes and offers nothing, and it keeps its
  buffer as it is. -/
theorem counters_match_offers (hreach : Reaches act (.new limit sink) l) :
    (l.hub.stats.entries = UInt64.ofNat (l.offers.length + l.hub.inHand.length) ∧
      l.hub.stats.records =
        UInt64.ofNat ((l.batches ++ l.hub.inHand).map Batch.records).sum ∧
      l.hub.stats.bytes = UInt64.ofNat (l.reads.map (·.2.size)).sum ∧
      (∀ batch ∈ l.batches ++ l.hub.inHand, ∃ set, batch = [set]) ∧
      l.hub.sink = Sink.emitAll sink l.batches) ∧
    (∀ (i : Nat) (s : Session) (n : Nat) (l' : Ledger σ), l.hub.sessions[i]? = some s →
      Message.decode s.buffer = .separators n → s.inHand = [] → l.act (.advance i) = some l' →
      l'.hub.stats.entries = l.hub.stats.entries ∧ l'.hub.stats.records = l.hub.stats.records ∧
        l'.offers = l.offers) ∧
    (∀ (i : Nat) (error : SinkError), l.hub.outcome? i = some (.sink error) ↔
      ∃ batch, ⟨i, batch, .refused error⟩ ∈ l.offers) ∧
    (∀ (i : Nat) (s : Session) (error : SinkError), l.hub.sessions[i]? = some s →
      s.phase = .finished (.sink error) → ∀ l', Reaches act l l' →
      l'.hub.advance i = none ∧ ∃ t, l'.hub.sessions[i]? = some t ∧
        t.phase = .finished (.sink error) ∧ t.buffer = s.buffer ∧ t.reads = s.reads ∧
        l'.offersOf i = l.offersOf i ∧ l'.readsOf i = l.readsOf i) := by
  have hcounted := counted_of_reaches hreach
  refine ⟨⟨?_, hcounted.records, hcounted.bytes, hcounted.single, sink_of_reaches hreach⟩,
    fun i s n l' hat hblank hnone hact => ?_, refused_of_reaches hreach,
    fun i s error hat hphase l' hreach' => ?_⟩
  · rw [hcounted.entries, List.length_append, batches, List.length_map]
  · obtain ⟨s', step, hoffers, -⟩ := exists_step_of_act hact hat
    obtain ⟨sets, hinHand, hstats⟩ := step.counted
    rw [step.inHand_of_separators hblank, eq_comm, List.map_eq_nil_iff] at hinHand
    rw [hinHand, Stats.countSets_nil] at hstats
    rw [offering, hnone, List.map_nil, List.append_nil] at hoffers
    rw [hstats]
    exact ⟨rfl, rfl, hoffers⟩
  · have hover : s.phase.isOver = true := by
      rw [hphase]
      rfl
    obtain ⟨t, hat', hsame, hstill⟩ := still_of_isOver hat hover hreach'
    refine ⟨?_, t, hat', hsame.trans hphase, hstill⟩
    rw [Hub.advance, hat', Option.bind_some, Option.map_eq_none_iff, step, hsame, hphase]

/-- Two clients and a sink that takes one batch.  The first client sends two messages, whitespace
and one message more in one piece; the second message is refused, and what is behind it stays in the
buffer.  The second client has a batch in hand. -/
theorem counters_match_offers_quota :
    ∃ l : Ledger (Quota JsonLines), Reaches act (.new 64 ⟨⟨.empty⟩, 1, "full"⟩) l ∧
      l.offers.length = 2 ∧ l.hub.inHand.length = 1 ∧ l.hub.stats.entries = 3 ∧
      l.hub.outcome? 0 = some (.sink (.rejected "full")) ∧
      ∀ l', Reaches act l l' → l'.hub.advance 0 = none ∧
        ∃ t, l'.hub.sessions[0]? = some t ∧ t.buffer.length = 6 ∧ (l'.offersOf 0).length = 2 := by
  let event : Bytes := [0x93, 0xA1, 0x61, 0x00, 0x80]
  let actions : List Hub.Action :=
    [.accept "a" ⟨[.chunk (event ++ event ++ [0x20] ++ event)], true⟩,
      .accept "b" ⟨[.chunk event], false⟩] ++
    .replicate 5 (.advance 0) ++ .replicate 5 (.advance 1) ++ .replicate 3 (.advance 0)
  obtain ⟨l, hactions, hoffers, hinHand, s, hat, hphase, hbuffer, hoffersOf⟩ :
      ∃ l : Ledger (Quota JsonLines),
        actions.foldlM act (.new 64 ⟨⟨.empty⟩, 1, "full"⟩) = some l ∧
        l.offers.length = 2 ∧ l.hub.inHand.length = 1 ∧
        ∃ s, l.hub.sessions[0]? = some s ∧ s.phase = .finished (.sink (.rejected "full")) ∧
          s.buffer.length = 6 ∧ (l.offersOf 0).length = 2 :=
    ⟨_, by cbv, rfl, rfl, _, rfl, rfl, rfl, rfl⟩
  have hreach : Reaches act (.new 64 (⟨⟨.empty⟩, 1, "full"⟩ : Quota JsonLines)) l :=
    .of_actions actions hactions
  obtain ⟨⟨hentries, -⟩, -, -, hrefused⟩ := counters_match_offers hreach
  refine ⟨l, hreach, hoffers, hinHand, ?_, Hub.outcome?_eq_some_iff.2 ⟨s, hat, hphase⟩, ?_⟩
  · rw [hentries, hoffers, hinHand]
    rfl
  · intro l' hreach'
    obtain ⟨hrests, t, hat', -, hbuffer', -, hoffersOf', -⟩ :=
      hrefused 0 s (.rejected "full") hat hphase l' hreach'
    refine ⟨hrests, t, hat', ?_, ?_⟩
    · rw [hbuffer', hbuffer]
    · rw [hoffersOf', hoffersOf]

end Ledger

end ForwardIntake
