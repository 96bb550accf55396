import ForwardIntake.Proofs.Connection.Running

/-!
# The limit on messages

The limit of a hub is meant to keep long messages from the sink.  A session compares it with what
its buffer shows of a message that is not all there yet (`Serving.demand`), and with nothing once
all of the message is there.  So whether a message that is longer than the limit is noticed depends
on where the reads end: some read has to end inside of the message, and to show that it is too long
(`Hub.limit_kept_iff`).  What comes in one read is handed on whatever its length
(`Serving.handed_of_one_read`).
-/

namespace ForwardIntake

namespace Serving

open Message

variable {limit : Nat} {b : Bytes} {chunks : List Bytes}

/-- What a session that has read `b` is left with after further reads, if it goes on up to there. -/
def held (b : Bytes) : List Bytes → Bytes
  | [] => leftover b
  | chunk :: chunks => held (leftover b ++ chunk) chunks

/-- The messages that a session hands on, with their places in the stream. -/
def handed (limit : Nat) (chunks : List Bytes) : List Sent :=
  (sent chunks.flatten).take (serve limit [] chunks).1.length

/-- A session whose next reads come to `chunks` reads no further than `read`: up to there it goes on
after each read, and if it then finds a message too long, it has seen so in its buffer. -/
structure Stops (limit : Nat) (b : Bytes) (chunks read unread : List Bytes) : Prop where
  split : chunks = read ++ unread
  sets : (serve limit b chunks).1 = delivered (b ++ read.flatten)
  goesOn : ∀ earlier, earlier <+: read → earlier ≠ read → stop? limit (held b earlier) = none
  tooLarge : (serve limit b chunks).2 = .tooLarge limit → limit < demand (held b read)

/-- The limit stops a session whose message needs more. -/
private theorem lt_demand_of_stop?_eq_tooLarge (h : stop? limit b = some (.tooLarge limit)) :
    limit < demand b := by
  rcases stop?_eq_some h with ⟨error, -, houtcome⟩ | ⟨hlt, -⟩
  · cases houtcome
  · exact hlt

/-- At the end of the input the limit is no outcome. -/
private theorem ending_ne_tooLarge : ending b ≠ .tooLarge limit := by
  rw [ending]
  intro h
  split at h
  · cases h
  · split at h
    · cases h
    · cases h

/-- Some of the input is read before the session ends. -/
private theorem exists_stops (limit : Nat) (b : Bytes) (chunks : List Bytes) :
    ∃ read unread, Stops limit b chunks read unread := by
  induction chunks generalizing b with
  | nil =>
    refine ⟨[], [], rfl, ?_, ?_, ?_⟩
    · rw [serve, List.flatten_nil, List.append_nil]
    · exact fun earlier hprefix hne => absurd (List.prefix_nil.1 hprefix) hne
    · rw [serve, held]
      cases hstop : stop? limit (leftover b) with
      | none => exact fun h => absurd h ending_ne_tooLarge
      | some outcome =>
        rintro rfl
        exact lt_demand_of_stop?_eq_tooLarge hstop
  | cons chunk chunks ih =>
    cases hstop : stop? limit (leftover b) with
    | some outcome =>
      refine ⟨[], chunk :: chunks, rfl, ?_, ?_, ?_⟩
      · rw [serve, hstop, List.flatten_nil, List.append_nil]
      · exact fun earlier hprefix hne => absurd (List.prefix_nil.1 hprefix) hne
      · rw [serve, hstop, held]
        rintro rfl
        exact lt_demand_of_stop?_eq_tooLarge hstop
    | none =>
      obtain ⟨read, unread, hih⟩ := ih (leftover b ++ chunk)
      refine ⟨chunk :: read, unread, ?_, ?_, ?_, ?_⟩
      · rw [hih.split, List.cons_append]
      · rw [serve, hstop, List.flatten_cons, delivered_append, ← List.append_assoc, ← hih.sets]
      · intro earlier hprefix hne
        cases earlier with
        | nil => exact hstop
        | cons first earlier =>
          obtain ⟨rfl, hprefix'⟩ := List.cons_prefix_cons.1 hprefix
          exact hih.goesOn earlier hprefix' fun heq => hne (by rw [heq])
      · rw [serve, hstop]
        exact hih.tooLarge

/-- A session that finds no message too long hands on all messages of its stream. -/
private theorem tooLarge_or_delivered (limit : Nat) (b : Bytes) (chunks : List Bytes) :
    (serve limit b chunks).2 = .tooLarge limit ∨
      (serve limit b chunks).1 = delivered (b ++ chunks.flatten) := by
  induction chunks generalizing b with
  | nil =>
    right
    rw [serve, List.flatten_nil, List.append_nil]
  | cons chunk chunks ih =>
    rw [serve, List.flatten_cons, delivered_append]
    cases hstop : stop? limit (leftover b) with
    | none =>
      refine (ih (leftover b ++ chunk)).imp id fun hsets => ?_
      rw [← List.append_assoc, ← hsets]
    | some outcome =>
      rcases stop?_eq_some hstop with ⟨error, hrefusal, -⟩ | ⟨-, rfl⟩
      · right
        rw [(drain_append_of_refusal hrefusal _).1, List.append_nil]
      · exact .inl rfl

/-- The messages that are handed on are those that end where the session has read. -/
private theorem handed_eq_sent {read unread : List Bytes}
    (hstops : Stops limit [] chunks read unread) :
    handed limit chunks = sent read.flatten := by
  obtain ⟨later, hsent, -⟩ := sent_append read.flatten unread.flatten
  have hlength : (serve limit [] chunks).1.length = (sent read.flatten).length := by
    rw [hstops.sets, List.nil_append, ← map_set_sent, List.length_map]
  rw [handed, hlength, hstops.split, List.flatten_append, hsent, List.take_left]

/-- The messages that are handed on carry the record sets that are handed on. -/
private theorem map_set_handed (limit : Nat) (chunks : List Bytes) :
    (handed limit chunks).map (·.set) = (serve limit [] chunks).1 := by
  obtain ⟨read, unread, hstops⟩ := exists_stops limit [] chunks
  rw [handed_eq_sent hstops, map_set_sent, hstops.sets, List.nil_append]

/-- If all is delivered, every message is handed on. -/
private theorem handed_eq_of_delivered (h : (serve limit [] chunks).1 = delivered chunks.flatten) :
    handed limit chunks = sent chunks.flatten := by
  rw [handed, h, ← map_set_sent, List.length_map, List.take_length]

/-- A message that is handed on was not noticed: each read that ends before it does shows the
session no more than the limit. -/
private theorem demand_held_le {m : Sent} (hm : m ∈ handed limit chunks) {read : List Bytes}
    (hread : read <+: chunks) (hbefore : read.flatten.length < m.stop) :
    demand (held [] read) ≤ limit := by
  obtain ⟨whole, unread, hstops⟩ := exists_stops limit [] chunks
  rw [handed_eq_sent hstops] at hm
  have hend : m.stop ≤ whole.flatten.length :=
    Nat.le_trans (stop_le_of_mem_sent hm) (used_le whole.flatten)
  have hwhole : whole <+: chunks := ⟨unread, hstops.split.symm⟩
  -- the session went on after `read`, which is not the last of its reads
  rcases List.prefix_or_prefix_of_prefix hread hwhole with hearlier | ⟨rest, rfl⟩
  · refine (stop?_eq_none_iff.1 (hstops.goesOn read hearlier ?_)).2
    rintro rfl
    exact absurd hend (Nat.not_le.2 hbefore)
  · rw [List.flatten_append, List.length_append] at hbefore
    omega

/-- A session with nothing in its buffer reads on, unless the limit is nothing. -/
private theorem stop?_nil (hlimit : 0 < limit) : stop? limit [] = none := by
  have hwait : Scanner.frameOf [] = .incomplete 1 := Scanner.frameOf_of_nil rfl
  rw [stop?_eq_none_iff, refusal?_of_incomplete hwait, demand_of_incomplete hwait]
  exact ⟨rfl, hlimit⟩

/-- A client that sends all bytes at once is served behind its first read. -/
theorem serve_of_one_read (hlimit : 0 < limit) (b : Bytes) :
    serve limit [] [b] = serve limit b [] := by
  have hempty : leftover [] = [] := leftover_of_none rfl
  have hnothing : delivered [] = [] := delivered_of_none rfl
  simp only [serve, hempty, hnothing, stop?_nil hlimit, List.nil_append]

/-- **What comes in one read is not compared with the limit.** -/
private theorem handed_of_one_read (hlimit : 0 < limit) (b : Bytes) :
    handed limit [b] = sent b := by
  have hdelivered : (serve limit [] [b]).1 = delivered [b].flatten := by
    rw [serve_of_one_read hlimit, serve, List.flatten_singleton]
  rw [handed_eq_of_delivered hdelivered, List.flatten_singleton]

end Serving

namespace Hub

open ForwardIntake.Frame Scanner Message Serving

variable {σ : Type} [Sink σ] {h : Hub σ} {i : Nat} {chunks : List Bytes}

/-- **When the limit is kept.**  Of a stream, no message over the limit reaches the sink, and the
session ends with the limit if there is one, exactly if each of them is noticed: some read ends
before the message does, and what the session then holds asks for more bytes than the limit. -/
theorem limit_kept_iff (hreceives : h.Receives i chunks) (hmemory : InMemory h.limit [] chunks) :
    (h.run i).sink = Sink.emitAll h.sink ((handed h.limit chunks).map fun m => [m.set]) ∧
      ((∀ m ∈ handed h.limit chunks, m.size ≤ h.limit) ∧
          ((∃ m ∈ sent chunks.flatten, h.limit < m.size) →
            (h.run i).outcome? i = some (.tooLarge h.limit)) ↔
        ∀ m ∈ sent chunks.flatten, h.limit < m.size →
          ∃ read, read <+: chunks ∧ read.flatten.length < m.stop ∧
            h.limit < demand (held [] read)) := by
  obtain ⟨hsink, houtcome⟩ := run_serve hreceives hmemory
  refine ⟨?_, ?_, ?_⟩
  · rw [hsink, ← map_set_handed, List.map_map]
    rfl
  · rintro ⟨hsizes, hlimit⟩ m hm hlarge
    obtain ⟨read, unread, hstops⟩ := exists_stops h.limit [] chunks
    obtain ⟨later, hsent, hlater⟩ := sent_append read.flatten unread.flatten
    rw [← List.flatten_append, ← hstops.split] at hsent
    have hend := hlimit ⟨m, hm, hlarge⟩
    rw [houtcome] at hend
    refine ⟨read, ⟨unread, hstops.split.symm⟩, ?_, hstops.tooLarge (Option.some.inj hend)⟩
    -- the session stops before the end of the message, or it would have handed it on
    rw [hsent] at hm
    rcases List.mem_append.1 hm with hread | hunread
    · have := hsizes m (by rwa [handed_eq_sent hstops])
      omega
    · exact hlater m hunread
  · intro hnoticed
    have hsizes : ∀ m ∈ handed h.limit chunks, m.size ≤ h.limit := by
      intro m hm
      by_contra hlarge
      obtain ⟨read, hread, hbefore, hdemand⟩ :=
        hnoticed m (List.mem_of_mem_take hm) (Nat.lt_of_not_le hlarge)
      exact absurd (demand_held_le hm hread hbefore) (Nat.not_le.2 hdemand)
    refine ⟨hsizes, fun ⟨m, hm, hlarge⟩ => ?_⟩
    rcases tooLarge_or_delivered h.limit [] chunks with hend | hall
    · rw [houtcome, hend]
    · rw [handed_eq_of_delivered hall] at hsizes
      exact absurd (hsizes m hm) (Nat.not_le.2 hlarge)

/-- The event `["a",0,{}]`. -/
private theorem decode_event :
    decode [0x93, 0xA1, 0x61, 0x00, 0x80] = .message ⟨"a", [⟨0, []⟩]⟩ 5 := by
  with_unfolding_all rfl

/-- Its only message ends at its end. -/
private theorem sent_event :
    sent [0x93, 0xA1, 0x61, 0x00, 0x80] = [⟨⟨"a", [⟨0, []⟩]⟩, 5, 5⟩] := by
  have hsent := sent_of_some (congrArg Decoding.sets? decode_event)
  have hend : sent [] = [] := sent_of_none rfl
  rw [decode_event] at hsent
  rw [hsent]
  simp only [Decoding.consumed_message, List.drop_succ_cons, List.drop_zero, hend]
  rfl

/-- The event cut behind its tag, where four bytes are the least it can have. -/
theorem limit_kept_iff_event :
    let reads := [.chunk [0x93, 0xA1, 0x61], .chunk [0x00, 0x80]]
    let h := (Hub.new 3 (⟨.empty⟩ : JsonLines)).accept "" (.ofArrivals reads)
    (∀ m ∈ handed 3 [[0x93, 0xA1, 0x61], [0x00, 0x80]], m.size ≤ 3) ∧
      (h.run 0).outcome? 0 = some (.tooLarge 3) := by
  intro reads h
  have hreceives : h.Receives 0 [[0x93, 0xA1, 0x61], [0x00, 0x80]] := by
    refine ⟨⟨0, ⟨0⟩, reads, rfl, rfl, ?_, rfl⟩, JsonLines.accepts_of_faultless fun _ => rfl⟩
    decide
  have hheld : held [] [[0x93, 0xA1, 0x61]] = [0x93, 0xA1, 0x61] := by
    have hempty : leftover [] = [] := leftover_of_none rfl
    rw [held, held, hempty]
    exact leftover_of_none (by with_unfolding_all rfl)
  have hframe : frameOf [0x93, 0xA1, 0x61] = .incomplete 4 := by cbv
  have hkept := (limit_kept_iff hreceives (inMemory_of_flatten (by decide))).2.2 fun m hm _ => by
    refine ⟨[[0x93, 0xA1, 0x61]], ⟨[[0x00, 0x80]], rfl⟩, ?_, ?_⟩
    · have hmem : m ∈ [(⟨⟨"a", [⟨0, []⟩]⟩, 5, 5⟩ : Sent)] := sent_event ▸ hm
      rw [List.mem_singleton.1 hmem]
      decide
    · rw [hheld, demand, hframe]
      decide
  refine ⟨hkept.1, hkept.2 ⟨⟨⟨"a", [⟨0, []⟩]⟩, 5, 5⟩, ?_, by decide⟩⟩
  exact sent_event.symm ▸ List.mem_singleton_self _

/-- The event in one read: it is handed on, of five bytes, although the limit is three. -/
theorem limit_missed :
    let h := (Hub.new 3 (⟨.empty⟩ : JsonLines)).accept ""
      (.ofArrivals [.chunk [0x93, 0xA1, 0x61, 0x00, 0x80]])
    sent [0x93, 0xA1, 0x61, 0x00, 0x80] = [⟨⟨"a", [⟨0, []⟩]⟩, 5, 5⟩] ∧
      (h.run 0).sink = Sink.emitAll ⟨.empty⟩ [[⟨"a", [⟨0, []⟩]⟩]] ∧
      (h.run 0).sink.writer.calls = 1 ∧
      (h.run 0).outcome? 0 = some .disconnected := by
  intro h
  have hreceives : h.Receives 0 [[0x93, 0xA1, 0x61, 0x00, 0x80]] := by
    refine ⟨⟨0, ⟨0⟩, _, rfl, rfl, ?_, rfl⟩, JsonLines.accepts_of_faultless fun _ => rfl⟩
    decide
  obtain ⟨hsink, houtcome⟩ := run_serve hreceives (inMemory_of_flatten (by decide))
  rw [← map_set_handed, handed_of_one_read (by decide), sent_event] at hsink
  refine ⟨sent_event, hsink, ?_, houtcome.trans ?_⟩
  · rw [hsink]
    with_unfolding_all rfl
  · have hleftover : leftover [0x93, 0xA1, 0x61, 0x00, 0x80] = [] := by
      rw [leftover_of_some (congrArg Decoding.sets? decode_event), decode_event]
      exact leftover_of_none rfl
    rw [serve_of_one_read (by decide), serve, hleftover, stop?_nil (by decide)]
    rfl

end Hub

end ForwardIntake
