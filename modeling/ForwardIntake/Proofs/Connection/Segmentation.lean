import ForwardIntake.Proofs.Connection.Running

/-!
# Segmentation does not matter

Where the messages of a stream fit into the limit (`Serving.Fits`), a session hands on what draining
the whole stream hands on, however the stream was cut into reads and wherever reads failed in
between (`Hub.run_eq_drain`).

A session decides on less than the whole stream.  It stops at a refused frame, and there the decoder
refuses the whole stream as well; and it asks for no more bytes than the stream turns out to need
(`demand_le`), so the limit never ends it.  What it carries over from read to read fits whenever the
whole stream does (`Fits.leftover`).
-/

namespace ForwardIntake

namespace Serving

open ForwardIntake.Frame Scanner Message

variable {limit : Nat} {p q t : Bytes}

/-- Every message of a buffer fits into the limit, and so does what is left over, as far as its
needs are known. -/
structure Fits (limit : Nat) (b : Bytes) : Prop where
  steps : ∀ d ∈ (drain b).1, d.consumed ≤ limit
  room : (leftover b).length < limit
  needed : ∀ needed, frameOf (leftover b) = .incomplete needed → needed ≤ limit

/-! ### Separators before what is left over -/

/-- What trails is no longer. -/
private theorem length_le_of_trails {x y : Bytes} (h : Trails x y) : y.length ≤ x.length := by
  obtain rfl | ⟨blank, -, -, rfl⟩ := h
  · exact Nat.le_refl _
  · rw [List.length_append]
    exact Nat.le_add_left _ _

/-- Separators do not change how a session ends. -/
private theorem ending_eq_of_trails {x y : Bytes} (h : Trails x y) : ending x = ending y := by
  obtain rfl | ⟨blank, hblank, hbody, rfl⟩ := h
  · rfl
  · have hy : y ≠ [] := fun hnil => hbody (by rw [hnil]; rfl)
    have hx : blank ++ y ≠ [] := fun hnil => hy (List.append_eq_nil_iff.1 hnil).2
    rw [ending, ending, if_neg hx, if_neg hy, decode_append_separators hblank hbody]
    cases decode y <;> rfl

/-- What is carried over to the next read fits whenever the whole stream does. -/
private theorem Fits.leftover (small : (p ++ t).length < 2 ^ 63) (h : Fits limit (p ++ t)) :
    Fits limit (leftover p ++ t) := by
  obtain ⟨-, htrails, hsteps⟩ := drain_append _ _
  refine ⟨fun d hd => ?_, ?_, fun needed hneeded => ?_⟩
  · obtain ⟨d', hd', hle⟩ := hsteps d hd
    exact Nat.le_trans hle (h.steps d' hd')
  · exact Nat.lt_of_le_of_lt (length_le_of_trails htrails) h.room
  · obtain heq | ⟨blank, hblank, hbody, heq⟩ := htrails
    · exact h.needed needed (heq ▸ hneeded)
    · have hsmall : (blank ++ Message.leftover (Message.leftover p ++ t)).length < 2 ^ 63 := by
        rw [← heq, length_leftover]
        omega
      have hframe := frameOf_append_separators hsmall hblank hbody
      rw [hneeded, ← heq] at hframe
      exact Nat.le_trans (Nat.le_add_right _ _) (h.needed _ hframe)

/-! ### What a session is left with after a read -/

/-- The first step of draining a buffer that fits uses up no more than the limit. -/
private theorem Fits.consumed_le {b : Bytes} (h : Fits limit b) : (decode b).consumed ≤ limit := by
  refine h.steps _ ?_
  cases hsets : (decode b).sets? with
  | none => rw [drain_of_none hsets]; exact List.mem_singleton_self _
  | some sets => rw [drain_of_some hsets]; exact List.mem_cons_self

/-- A buffer in which nothing can be decoded yet is what is left over of itself. -/
private theorem Fits.of_none {b : Bytes} (h : Fits limit b) (hnone : (decode b).sets? = none) :
    b.length < limit ∧ ∀ needed, frameOf b = .incomplete needed → needed ≤ limit := by
  have hroom := h.room
  have hneeded := h.needed
  rw [leftover_of_none hnone] at hroom hneeded
  exact ⟨hroom, hneeded⟩

/-- The scanner reaches no further than the limit into a buffer that fits. -/
private theorem Fits.reach_le {b : Bytes} (small : b.length < 2 ^ 63) (h : Fits limit b) :
    (frameOf b).reach b.length ≤ limit := by
  cases hsets : (decode b).sets? with
  | some sets =>
    rw [frameOf_of_sets? small hsets]
    exact h.consumed_le
  | none =>
    obtain ⟨hroom, hneeded⟩ := h.of_none hsets
    cases hframe : frameOf b with
    | incomplete needed => exact hneeded needed hframe
    | invalid => exact Nat.le_of_lt hroom
    | complete length =>
      exact Nat.le_trans (le_of_frameOf_eq_complete small hframe) (Nat.le_of_lt hroom)

/-- Where a session waits, it has less than the limit in its buffer. -/
private theorem length_lt_of_fits (hnone : (decode q).sets? = none) (h : Fits limit (q ++ t)) :
    q.length < limit := by
  -- the whole of `q` is left over in the end, or it is used up with more bytes in one step
  cases hsets : (decode (q ++ t)).sets? with
  | none =>
    have hroom := (h.of_none hsets).1
    rw [List.length_append] at hroom
    exact Nat.lt_of_le_of_lt (Nat.le_add_right _ _) hroom
  | some sets =>
    have hlt := lt_consumed_of_append hnone hsets
    exact Nat.lt_of_lt_of_le hlt h.consumed_le

/-- **A session asks for no more bytes than the stream needs.** -/
private theorem demand_le (small : (q ++ t).length < 2 ^ 63) (hnone : (decode q).sets? = none)
    (h : Fits limit (q ++ t)) : demand q ≤ limit := by
  rcases incomplete_or_found q with ⟨needed, hframe⟩ | found
  · rw [demand_of_incomplete hframe]
    exact Nat.le_trans (le_reach_frameOf_append small hframe) (h.reach_le small)
  · rw [demand_of_found found]
    split
    · exact length_lt_of_fits hnone h
    · exact Nat.zero_le _

/-- A session that is left with a part of a stream that fits stops only at a frame that is refused,
where the whole stream ends. -/
private theorem drain_append_of_stop {outcome : Outcome} (small : (q ++ t).length < 2 ^ 63)
    (hnone : (decode q).sets? = none) (hfits : Fits limit (q ++ t))
    (h : stop? limit q = some outcome) :
    delivered (q ++ t) = [] ∧ ending (leftover (q ++ t)) = outcome := by
  rcases stop?_eq_some h with ⟨error, hrefusal, rfl⟩ | ⟨hlt, -⟩
  · exact drain_append_of_refusal hrefusal t
  · exact absurd hlt (Nat.not_lt.2 (demand_le small hnone hfits))

/-! ### Whole streams -/

/-- **Serving is draining**, wherever the stream is cut. -/
private theorem serve_eq_drain {chunks : List Bytes} (small : (p ++ chunks.flatten).length < 2 ^ 63)
    (h : Fits limit (p ++ chunks.flatten)) :
    serve limit p chunks =
      (delivered (p ++ chunks.flatten), ending (leftover (p ++ chunks.flatten))) := by
  -- what is left over after a read takes the place of `p`, and it fits as the whole does
  induction chunks generalizing p with
  | nil =>
    have hnone := sets?_leftover p
    have hstop := @drain_append_of_stop limit (leftover p) []
    have hfits := h.leftover small
    have hsmall := leftover_append_lt small
    rw [List.flatten_nil] at hfits hsmall ⊢
    rw [List.append_nil] at hfits hsmall hstop ⊢
    rw [serve]
    cases hout : stop? limit (leftover p) with
    | none => rfl
    | some outcome =>
      have hending := (hstop hsmall hnone hfits hout).2
      rw [leftover_of_none hnone] at hending
      rw [hending]
      rfl
  | cons chunk chunks ih =>
    rw [List.flatten_cons] at small h ⊢
    have hfits := h.leftover small
    have hsmall := leftover_append_lt small
    rw [delivered_append, ending_eq_of_trails (drain_append _ _).2.1, serve]
    cases hout : stop? limit (leftover p) with
    | some outcome =>
      obtain ⟨hdelivered, hending⟩ := drain_append_of_stop hsmall (sets?_leftover p) hfits hout
      rw [hdelivered, hending, List.append_nil]
    | none =>
      rw [← List.append_assoc] at hfits hsmall ⊢
      rw [ih hsmall hfits]

end Serving

/-! ### Runs -/

namespace Hub

open ForwardIntake.Frame Scanner Message Serving

variable {σ : Type} [Sink σ] {h : Hub σ} {i : Nat} {chunks : List Bytes}

/-- What a session comes to on a stream that fits. -/
private theorem run_of_fits (hreceives : h.Receives i chunks)
    (small : chunks.flatten.length < 2 ^ 63) (hfits : Fits h.limit chunks.flatten) :
    (h.run i).sink = Sink.emitAll h.sink ((delivered chunks.flatten).map ([·])) ∧
      (h.run i).outcome? i = some (ending (leftover chunks.flatten)) := by
  have hrun := run_serve hreceives (inMemory_of_flatten small)
  rw [serve_eq_drain small hfits] at hrun
  exact hrun

/-- **A session drains its stream.**  Where the stream fits, the session hands on the record sets of
its messages one by one, and it ends as what is left over says.  So any two ways of cutting a stream
into reads, with failing reads in between, come to the same. -/
theorem run_eq_drain (hreceives : h.Receives i chunks) (small : chunks.flatten.length < 2 ^ 63)
    (hfits : Fits h.limit chunks.flatten) :
    (h.run i).sink = Sink.emitAll h.sink ((delivered chunks.flatten).map ([·])) ∧
      (h.run i).outcome? i = some (ending (leftover chunks.flatten)) ∧
      ∀ (h' : Hub σ) (i' : Nat) (chunks' : List Bytes), h'.Receives i' chunks' →
        chunks'.flatten = chunks.flatten → h'.limit = h.limit → h'.sink = h.sink →
        (h'.run i').sink = (h.run i).sink ∧ (h'.run i').outcome? i' = (h.run i).outcome? i := by
  obtain ⟨hsink, houtcome⟩ := run_of_fits hreceives small hfits
  refine ⟨hsink, houtcome, fun h' i' chunks' hreceives' hsame hlimit hsink₀ => ?_⟩
  rw [← hsame] at small hfits
  rw [← hlimit] at hfits
  obtain ⟨hsink', houtcome'⟩ := run_of_fits hreceives' small hfits
  refine ⟨?_, ?_⟩
  · rw [hsink', hsink, hsame, hsink₀]
  · rw [houtcome', houtcome, hsame]

/-- The event `["a",16,{}]` and a space, the event cut in two by a read that is interrupted. -/
theorem run_eq_drain_event :
    let reads := [.chunk [0x93, 0xA1], .fault ⟨.interrupted, ""⟩, .chunk [0x61, 0x10, 0x80, 0x20]]
    let h := (Hub.new 5 (⟨.empty⟩ : JsonLines)).accept "" (.ofArrivals reads)
    (h.run 0).sink = Sink.emitAll ⟨.empty⟩ [[⟨"a", [⟨16, []⟩]⟩]] ∧
      (h.run 0).outcome? 0 = some .disconnected := by
  intro reads h
  have hreceives : h.Receives 0 [[0x93, 0xA1], [], [0x61, 0x10, 0x80, 0x20]] := by
    refine ⟨⟨0, ⟨0⟩, reads, rfl, rfl, ?_, rfl⟩, JsonLines.accepts_of_faultless fun _ => rfl⟩
    decide
  have hevent : decode [0x93, 0xA1, 0x61, 0x10, 0x80, 0x20] = .message ⟨"a", [⟨16, []⟩]⟩ 5 := by
    with_unfolding_all rfl
  have hspace : decode [0x20] = .separators 1 := rfl
  have hend : drain [] = ([.incomplete], 0) := drain_of_none rfl
  have hdrain : drain [0x93, 0xA1, 0x61, 0x10, 0x80, 0x20] =
      ([.message ⟨"a", [⟨16, []⟩]⟩ 5, .separators 1, .incomplete], 6) := by
    have hrest := drain_of_some (congrArg Decoding.sets? hspace)
    have hwhole := drain_of_some (congrArg Decoding.sets? hevent)
    rw [hspace] at hrest
    rw [hevent] at hwhole
    simp at hrest hwhole
    rw [hwhole, hrest, hend]
    rfl
  have hleftover : leftover [0x93, 0xA1, 0x61, 0x10, 0x80, 0x20] = [] := by
    rw [leftover, hdrain]
    rfl
  have hdelivered : delivered [0x93, 0xA1, 0x61, 0x10, 0x80, 0x20] = [⟨"a", [⟨16, []⟩]⟩] := by
    rw [delivered, hdrain]
    rfl
  have hfits : Fits h.limit [0x93, 0xA1, 0x61, 0x10, 0x80, 0x20] := by
    refine ⟨?_, ?_, ?_⟩
    · rw [hdrain]
      simp [h, accept, new]
    · rw [hleftover]
      decide
    · intro needed hneeded
      rw [hleftover, frameOf_of_nil rfl] at hneeded
      cases hneeded
      decide
  obtain ⟨hsink, houtcome, -⟩ := run_eq_drain hreceives (by decide) hfits
  refine ⟨hsink.trans ?_, houtcome.trans ?_⟩
  · exact congrArg (fun sets => Sink.emitAll h.sink (sets.map ([·]))) hdelivered
  · exact congrArg (fun b => some (ending b)) hleftover

end Hub

end ForwardIntake
