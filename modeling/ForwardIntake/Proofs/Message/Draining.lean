import ForwardIntake.Proofs.Message.Extension

/-!
# Draining a buffer in parts

A buffer that is drained before more bytes arrive, and drained again behind them, hands on the same
messages as the whole of it (`sent_append`).  What is left over may differ by separators, which are
used up alone in the one case and with the message behind them in the other (`Trails`).

`sent` tells of each message of a buffer how many bytes it takes and where it ends.  Messages that
end in the part that came first are those of that part (`lt_stop_of_mem_sent`).
-/

namespace ForwardIntake

namespace Message

open ForwardIntake.Frame Scanner

variable {b p t blank : Bytes} {sets : List RecordSet}

/-! ### Draining step by step -/

/-- Nothing to take: the drain ends with this decoding. -/
theorem drain_of_none (h : (decode b).sets? = none) : drain b = ([decode b], 0) := by
  rw [drain]
  split
  · rfl
  · rename_i heq
    rw [h] at heq
    cases heq

/-- What is decoded is taken, and the drain goes on behind it. -/
theorem drain_of_some (h : (decode b).sets? = some sets) :
    drain b = (decode b :: (drain (b.drop (decode b).consumed)).1,
      (decode b).consumed + (drain (b.drop (decode b).consumed)).2) := by
  rw [drain]
  split
  · rename_i heq
    rw [h] at heq
    cases heq
  · rfl

/-- Induction over the steps of draining. -/
theorem drain_induction {motive : Bytes → Prop}
    (stop : ∀ b, (decode b).sets? = none → motive b)
    (step : ∀ b sets, (decode b).sets? = some sets → motive (b.drop (decode b).consumed) →
      motive b) (b : Bytes) : motive b := by
  cases h : (decode b).sets? with
  | none => exact stop b h
  | some sets =>
    have hpos := consumed_decode h
    exact step b sets h (drain_induction stop step (b.drop (decode b).consumed))
termination_by b.length
decreasing_by simp only [List.length_drop]; omega

/-- What draining leaves of a buffer. -/
def leftover (b : Bytes) : Bytes :=
  b.drop (drain b).2

/-- The record sets that draining hands on. -/
def delivered (b : Bytes) : List RecordSet :=
  (drain b).1.flatMap fun d => d.sets?.getD []

/-- Nothing to take: all is left. -/
theorem leftover_of_none (h : (decode b).sets? = none) : leftover b = b := by
  rw [leftover, drain_of_none h, List.drop_zero]

/-- What is left behind a message is left of the whole. -/
theorem leftover_of_some (h : (decode b).sets? = some sets) :
    leftover b = leftover (b.drop (decode b).consumed) := by
  rw [leftover, drain_of_some h, leftover, List.drop_drop]

theorem delivered_of_none (h : (decode b).sets? = none) : delivered b = [] := by
  rw [delivered, drain_of_none h, List.flatMap_singleton, h]
  rfl

/-- A message is delivered ahead of what is delivered behind it. -/
theorem delivered_of_some (h : (decode b).sets? = some sets) :
    delivered b = sets ++ delivered (b.drop (decode b).consumed) := by
  rw [delivered, drain_of_some h, List.flatMap_cons, h]
  rfl

/-- Nothing more can be decoded from what is left over. -/
theorem sets?_leftover (b : Bytes) : (decode (leftover b)).sets? = none := by
  induction b using drain_induction with
  | stop b h => rwa [leftover_of_none h]
  | step b sets h ih => rwa [leftover_of_some h]

/-! ### Messages and their places -/

/-- A message in a stream. -/
structure Sent where
  set : RecordSet
  /-- The number of its bytes, without the separators before it. -/
  size : Nat
  /-- The number of bytes of the stream up to its end. -/
  stop : Nat
  deriving Repr

/-- The message, `k` bytes further into a stream. -/
def Sent.shift (k : Nat) (m : Sent) : Sent :=
  { m with stop := m.stop + k }

/-- The messages of a buffer. -/
def sent (b : Bytes) : List Sent :=
  match h : (decode b).sets? with
  | none => []
  | some sets =>
    have := consumed_decode h
    sets.map (⟨·, (decode b).consumed - (separators b).length, (decode b).consumed⟩) ++
      (sent (b.drop (decode b).consumed)).map (Sent.shift (decode b).consumed)
termination_by b.length
decreasing_by simp only [List.length_drop]; omega

theorem sent_of_none (h : (decode b).sets? = none) : sent b = [] := by
  rw [sent]
  split
  · rfl
  · rename_i heq
    rw [h] at heq
    cases heq

/-- A message is sent ahead of those behind it, which are moved by its length. -/
theorem sent_of_some (h : (decode b).sets? = some sets) :
    sent b =
      sets.map (⟨·, (decode b).consumed - (separators b).length, (decode b).consumed⟩) ++
        (sent (b.drop (decode b).consumed)).map (Sent.shift (decode b).consumed) := by
  rw [sent]
  split
  · rename_i heq
    rw [h] at heq
    cases heq
  · rename_i sets' heq
    rw [h] at heq
    cases heq
    rfl

/-- Two moves are one. -/
private theorem map_shift_shift (j k : Nat) (ms : List Sent) :
    (ms.map (Sent.shift j)).map (Sent.shift k) = ms.map (Sent.shift (k + j)) := by
  rw [List.map_map]
  refine List.map_congr_left fun m _ => ?_
  simp only [Function.comp_apply, Sent.shift, Nat.add_assoc, Nat.add_comm j]

/-- The messages of a buffer carry the record sets that draining hands on. -/
theorem map_set_sent (b : Bytes) : (sent b).map (·.set) = delivered b := by
  induction b using drain_induction with
  | stop b h => rw [sent_of_none h, delivered_of_none h, List.map_nil]
  | step b sets h ih =>
    rw [sent_of_some h, delivered_of_some h, List.map_append, List.map_map, List.map_map, ← ih]
    congr 1
    exact List.map_id sets

/-! ### Separators before a buffer -/

/-- The buffers differ at most by separators before a message that is not all there. -/
def Trails (x y : Bytes) : Prop :=
  x = y ∨ ∃ blank, body blank = [] ∧ body y ≠ [] ∧ x = blank ++ y

/-- Moving a decoding leaves its record set. -/
private theorem sets?_shift (k : Nat) (d : Decoding) : (d.shift k).sets? = d.sets? := by
  cases d <;> rfl

/-- A decoding that is moved takes the bytes ahead of it as well. -/
private theorem consumed_shift {k : Nat} {d : Decoding} (h : d.sets? = some sets) :
    (d.shift k).consumed = d.consumed + k := by
  obtain ⟨n, rfl, -⟩ | ⟨set, n, rfl, -⟩ := Decoding.sets?_eq_some_iff.1 h
  · rfl
  · rfl

/-- Separators end where something else begins. -/
private theorem body_eq_nil_of_append (h : body (p ++ t) = []) : body p = [] := by
  rw [body, List.dropWhile_eq_nil_iff] at h ⊢
  exact fun byte hbyte => h byte (List.mem_append_left t hbyte)

/-- Separators are used up if there are any. -/
private theorem eq_nil_of_body_eq_nil (hnone : (decode b).sets? = none) (h : body b = []) :
    b = [] := by
  by_contra hne
  rw [decode_of_nil h, if_neg hne] at hnone
  cases hnone

/-- Separators alone are used up in one step. -/
private theorem drain_of_body_eq_nil (h : body b = []) :
    leftover b = [] ∧ (drain b).2 = b.length ∧ sent b = [] ∧
      (∀ d ∈ (drain b).1, d.consumed ≤ b.length) ∧ ∃ d ∈ (drain b).1, d.consumed = b.length := by
  have hnil : (decode []).sets? = none := rfl
  by_cases hb : b = []
  · subst hb
    have hdrain : drain [] = ([decode []], 0) := drain_of_none hnil
    refine ⟨leftover_of_none hnil, by rw [hdrain]; rfl, sent_of_none hnil, ?_⟩
    rw [hdrain]
    exact ⟨List.forall_mem_singleton.2 (Nat.le_refl 0), _, List.mem_singleton_self _, rfl⟩
  · have hdecode : decode b = .separators b.length := by rw [decode_of_nil h, if_neg hb]
    have hsets : (decode b).sets? = some [] := by simp [hdecode]
    have hdrop : b.drop (decode b).consumed = [] := by
      rw [hdecode]
      exact List.drop_length
    have hdrain := drain_of_some hsets
    rw [hdrop, drain_of_none hnil, hdecode] at hdrain
    refine ⟨?_, by rw [hdrain]; rfl, ?_, ?_⟩
    · rw [leftover_of_some hsets, hdrop, leftover_of_none hnil]
    · rw [sent_of_some hsets, hdrop, sent_of_none hnil]
      rfl
    · rw [hdrain]
      refine ⟨?_, _, List.mem_cons_self, rfl⟩
      exact List.forall_mem_cons.2 ⟨Nat.le_refl _, List.forall_mem_singleton.2 (Nat.zero_le _)⟩

/-- Separators before a buffer are used up with its first step. -/
private theorem drain_append_separators (hblank : body blank = []) (t : Bytes) :
    sent (blank ++ t) = (sent t).map (Sent.shift blank.length) ∧
      Trails (leftover (blank ++ t)) (leftover t) ∧
      ∀ d ∈ (drain t).1, ∃ d' ∈ (drain (blank ++ t)).1, d.consumed ≤ d'.consumed := by
  -- the separators are used up on their own only where no message begins behind them
  by_cases hbody : body t = []
  · obtain ⟨hleft, -, hsent, hsteps, -⟩ := drain_of_body_eq_nil hbody
    have hwhole : body (blank ++ t) = [] := by rw [body_append_of_body_eq_nil hblank, hbody]
    obtain ⟨hleft', -, hsent', -, d', hd', hall⟩ := drain_of_body_eq_nil hwhole
    refine ⟨by rw [hsent, hsent']; rfl, .inl (by rw [hleft, hleft']), fun d hd => ⟨d', hd', ?_⟩⟩
    have hle := hsteps d hd
    rw [List.length_append] at hall
    omega
  have hdecode := decode_append_separators hblank hbody
  cases h : (decode t).sets? with
  | none =>
    have hwhole : (decode (blank ++ t)).sets? = none := by rw [hdecode, sets?_shift, h]
    refine ⟨by rw [sent_of_none h, sent_of_none hwhole]; rfl, .inr ⟨blank, hblank, ?_, ?_⟩, ?_⟩
    · rwa [leftover_of_none h]
    · rw [leftover_of_none h, leftover_of_none hwhole]
    · rw [drain_of_none h, drain_of_none hwhole, hdecode]
      refine List.forall_mem_singleton.2 ⟨_, List.mem_singleton_self _, ?_⟩
      cases hd : decode t with
      | incomplete => exact Nat.le_refl _
      | refused error => exact Nat.le_refl _
      | separators n => exact Nat.le_add_right n _
      | message set n => exact Nat.le_add_right n _
  | some sets =>
    have hwhole : (decode (blank ++ t)).sets? = some sets := by rw [hdecode, sets?_shift, h]
    have hconsumed : (decode (blank ++ t)).consumed = (decode t).consumed + blank.length := by
      rw [hdecode, consumed_shift h]
    have hdrop : (blank ++ t).drop (decode (blank ++ t)).consumed =
        t.drop (decode t).consumed := by
      rw [hconsumed, Nat.add_comm, List.drop_append, List.drop_eq_nil_of_le (Nat.le_add_right _ _),
        List.nil_append, Nat.add_sub_cancel_left]
    have hsize : (decode t).consumed + blank.length - (separators (blank ++ t)).length =
        (decode t).consumed - (separators t).length := by
      rw [length_separators_append_of_body_eq_nil hblank, Nat.add_sub_add_right]
    refine ⟨?_, .inl (by rw [leftover_of_some h, leftover_of_some hwhole, hdrop]), ?_⟩
    · rw [sent_of_some h, sent_of_some hwhole, hdrop, hconsumed, hsize, List.map_append,
        map_shift_shift, List.map_map, Nat.add_comm blank.length]
      rfl
    · rw [drain_of_some h, drain_of_some hwhole, hdrop]
      intro d hd
      rcases List.mem_cons.1 hd with rfl | hd
      · exact ⟨_, List.mem_cons_self, by rw [hconsumed]; exact Nat.le_add_right _ _⟩
      · exact ⟨d, List.mem_cons_of_mem _ hd, Nat.le_refl _⟩

/-! ### Draining in parts -/

/-- **A buffer that is drained in parts** comes to the messages of the whole and to what the whole
leaves over, and no step uses up more. -/
theorem drain_append (p t : Bytes) :
    sent (p ++ t) = sent p ++ (sent (leftover p ++ t)).map (Sent.shift (drain p).2) ∧
      Trails (leftover (p ++ t)) (leftover (leftover p ++ t)) ∧
      ∀ d ∈ (drain (leftover p ++ t)).1, ∃ d' ∈ (drain (p ++ t)).1, d.consumed ≤ d'.consumed := by
  induction p using drain_induction with
  | stop p h =>
    rw [leftover_of_none h, sent_of_none h, drain_of_none h]
    refine ⟨?_, .inl rfl, fun d hd => ⟨d, hd, Nat.le_refl _⟩⟩
    exact (List.map_id _).symm
  | step p sets h ih =>
    obtain ⟨n, hdecode, -⟩ | ⟨set, n, hdecode, -⟩ := Decoding.sets?_eq_some_iff.1 h
    · obtain ⟨hblank, -⟩ := body_eq_nil_of_separators hdecode
      obtain ⟨hleft, hused, hsent, -⟩ := drain_of_body_eq_nil hblank
      rw [hleft, hused, hsent]
      exact drain_append_separators hblank t
    · have hle : n ≤ p.length := by
        have := (consumed_decode h).2
        rwa [hdecode] at this
      -- the first step is the same with `t` behind it, and the induction goes on behind that step
      have hmore : decode (p ++ t) = .message set n := decode_append_of_message hdecode t
      have hdrop : (p ++ t).drop n = p.drop n ++ t := List.drop_append_of_le_length hle
      have hbody : body p ≠ [] := body_ne_nil_of_message hdecode
      have hsets : (decode p).sets? = some [set] := by simp [hdecode]
      have hsets' : (decode (p ++ t)).sets? = some [set] := by simp [hmore]
      have hsent := sent_of_some hsets
      have hsent' := sent_of_some hsets'
      have hleft := leftover_of_some hsets
      have hleft' := leftover_of_some hsets'
      have hdrain := drain_of_some hsets
      have hdrain' := drain_of_some hsets'
      rw [hdecode] at hsent hleft hdrain ih
      rw [hmore] at hsent' hleft' hdrain'
      simp only [Decoding.consumed_message, hdrop, separators_append hbody] at *
      obtain ⟨ihsent, ihtrails, ihsteps⟩ := ih
      rw [hleft, hleft', hdrain, hdrain', hsent, hsent', ihsent]
      refine ⟨?_, ihtrails, fun d hd => ?_⟩
      · rw [List.map_append, map_shift_shift, List.append_assoc]
      · obtain ⟨d', hd', hle'⟩ := ihsteps d hd
        exact ⟨d', List.mem_cons_of_mem _ hd', hle'⟩

/-- **Delivery goes on.**  What comes later is delivered behind what is left over. -/
theorem delivered_append (p t : Bytes) :
    delivered (p ++ t) = delivered p ++ delivered (leftover p ++ t) := by
  have hset : ∀ k, (fun m : Sent => m.set) ∘ Sent.shift k = fun m => m.set := fun _ => rfl
  rw [← map_set_sent, (drain_append p t).1, List.map_append, List.map_map, hset, map_set_sent,
    map_set_sent]

/-! ### Where messages end -/

/-- The drain takes no more than there is. -/
theorem used_le (b : Bytes) : (drain b).2 ≤ b.length := by
  induction b using drain_induction with
  | stop b h =>
    rw [drain_of_none h]
    exact Nat.zero_le _
  | step b sets h ih =>
    have hconsumed := (consumed_decode h).2
    rw [List.length_drop] at ih
    rw [drain_of_some h]
    omega

/-- What is not taken is left. -/
theorem length_leftover (b : Bytes) : (leftover b).length = b.length - (drain b).2 :=
  List.length_drop

/-- A bound on all bytes bounds those that are left. -/
theorem leftover_append_lt {bound : Nat} (h : (p ++ t).length < bound) :
    (leftover p ++ t).length < bound := by
  have hlength := length_leftover p
  rw [List.length_append] at h ⊢
  omega

/-- The messages of a buffer end in the part of it that draining uses up. -/
theorem stop_le_of_mem_sent {m : Sent} (h : m ∈ sent b) : m.stop ≤ (drain b).2 := by
  induction b using drain_induction generalizing m with
  | stop b hnone =>
    rw [sent_of_none hnone] at h
    cases h
  | step b sets hsome ih =>
    rw [sent_of_some hsome] at h
    rw [drain_of_some hsome]
    rcases List.mem_append.1 h with h | h
    · obtain ⟨set, -, rfl⟩ := List.mem_map.1 h
      exact Nat.le_add_right _ _
    · obtain ⟨m', hm', rfl⟩ := List.mem_map.1 h
      have := ih hm'
      simp only [Sent.shift]
      omega

/-- Where nothing can be decoded yet, more bytes have to be used up. -/
theorem lt_consumed_of_append (hnone : (decode p).sets? = none)
    (hsome : (decode (p ++ t)).sets? = some sets) : p.length < (decode (p ++ t)).consumed := by
  obtain ⟨n, hdecode, -⟩ | ⟨set, n, hdecode, -⟩ := Decoding.sets?_eq_some_iff.1 hsome
  · obtain ⟨hblank, -⟩ := body_eq_nil_of_separators hdecode
    rw [eq_nil_of_body_eq_nil hnone (body_eq_nil_of_append hblank)] at hsome ⊢
    exact (consumed_decode hsome).1
  · refine Nat.lt_of_not_le fun hle => ?_
    rw [hdecode] at hle
    rw [decode_of_append_message hdecode hle] at hnone
    cases hnone

/-- Where nothing can be decoded yet, no message ends. -/
private theorem lt_stop_of_mem_sent {m : Sent} (hnone : (decode p).sets? = none)
    (h : m ∈ sent (p ++ t)) :
    p.length < m.stop := by
  cases hdecode : (decode (p ++ t)).sets? with
  | none =>
    rw [sent_of_none hdecode] at h
    cases h
  | some sets =>
    have hlt := lt_consumed_of_append hnone hdecode
    rw [sent_of_some hdecode] at h
    rcases List.mem_append.1 h with h | h
    · obtain ⟨set, -, rfl⟩ := List.mem_map.1 h
      exact hlt
    · obtain ⟨m', hm', rfl⟩ := List.mem_map.1 h
      exact Nat.lt_of_lt_of_le hlt (Nat.le_add_left _ _)

/-- **Messages that end later come later.** -/
theorem sent_append (p t : Bytes) :
    ∃ later, sent (p ++ t) = sent p ++ later ∧ ∀ m ∈ later, p.length < m.stop := by
  -- nothing can be decoded from what is left of `p`, so what follows ends behind it
  refine ⟨_, (drain_append p t).1, fun m hm => ?_⟩
  obtain ⟨m', hm', rfl⟩ := List.mem_map.1 hm
  have hlength := length_leftover p
  have hused := used_le p
  have := lt_stop_of_mem_sent (sets?_leftover p) hm'
  simp only [Sent.shift]
  omega

end Message

end ForwardIntake
