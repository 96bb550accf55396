import ForwardIntake.Proofs.Message.Entries
import ForwardIntake.Proofs.Message.Shapes
import ForwardIntake.Proofs.MessagePack.Extension

/-!
# Packed entries

Packed entries stand one behind the other, with nothing that tells how many there are or how long
they are.  This works because no value of MessagePack is the beginning of another one: bytes are a
row of values in one way at most (`eq_of_flatten_eq`), and a value that is cut off inside is
incomplete (`Spells.run_cut`).

So unpacking succeeds just on rows of entries (`decides_unpack`).  Cut off between two of them such
a row is a shorter one, and cut off anywhere else it is refused with the place where the entry
begins that the cut is in (`unpack_tiles`).
-/

namespace ForwardIntake

namespace MessagePack

variable {b c front more more' : Bytes} {v w : Value}

/-! ### Rows of values -/

/-- The bytes are one value and nothing else. -/
def Spells (b : Bytes) (v : Value) : Prop :=
  reader.run b = .done v []

/-- What is spelled is read, whatever follows. -/
theorem Spells.run_append (h : Spells b v) (more : Bytes) :
    reader.run (b ++ more) = .done v more :=
  (steady_value maxDepth).done h more

/-- No value is spelled by nothing. -/
theorem Spells.ne_nil (h : Spells b v) : b ≠ [] := by
  have hprogress := reader.progress h
  exact List.ne_nil_of_length_pos hprogress

/-- A value that was read from the front of some bytes is spelled there. -/
theorem exists_spells (h : reader.run b = .done v more) :
    ∃ front, b = front ++ more ∧ Spells front v := by
  obtain ⟨front, hfront, hsame⟩ := value_eq_done_append h
  have hspells := hsame []
  rw [List.append_nil] at hspells
  exact ⟨front, hfront, hspells⟩

/-- **A value that is cut off is incomplete.** -/
private theorem Spells.run_cut (h : Spells (front ++ more) v) (hmore : more ≠ []) :
    reader.run front = .incomplete := by
  -- what is read of the front, or refused there, would come of the whole in the same way
  cases hfront : reader.run front with
  | incomplete => rfl
  | done w rest =>
    have hwhole := (steady_value maxDepth).done hfront more
    rw [show value maxDepth (front ++ more) = .done v [] from h] at hwhole
    obtain ⟨-, hnil⟩ := Reading.done.inj hwhole
    exact absurd (List.append_eq_nil_iff.1 hnil.symm).2 hmore
  | failed error =>
    have hwhole := (steady_value maxDepth).failed hfront more
    rw [show value maxDepth (front ++ more) = .done v [] from h] at hwhole
    cases hwhole

/-- No value is the beginning of another one. -/
private theorem Spells.eq_of_append_eq (h : Spells b v) (h' : Spells c w)
    (heq : b ++ more = c ++ more') : b = c := by
  have hdone := h.run_append more
  rw [heq, h'.run_append more'] at hdone
  obtain ⟨-, rfl⟩ := Reading.done.inj hdone
  exact List.append_cancel_right heq

/-- **Bytes are a row of values in one way.** -/
private theorem eq_of_flatten_eq {chunks others : List Bytes} (h : ∀ c ∈ chunks, ∃ v, Spells c v)
    (hothers : ∀ c ∈ others, ∃ v, Spells c v) (heq : chunks.flatten = others.flatten) :
    chunks = others := by
  induction chunks generalizing others with
  | nil =>
    rcases others with _ | ⟨c, others⟩
    · rfl
    · obtain ⟨⟨v, hc⟩, -⟩ := List.forall_mem_cons.1 hothers
      exact absurd (List.append_eq_nil_iff.1 heq.symm).1 hc.ne_nil
  | cons b chunks ih =>
    obtain ⟨⟨v, hb⟩, hchunks⟩ := List.forall_mem_cons.1 h
    rcases others with _ | ⟨c, others⟩
    · exact absurd (List.append_eq_nil_iff.1 heq).1 hb.ne_nil
    · obtain ⟨⟨w, hc⟩, hrest⟩ := List.forall_mem_cons.1 hothers
      rw [List.flatten_cons, List.flatten_cons] at heq
      -- of two values at the front neither begins the other, so the rest is the same as well
      obtain rfl := hb.eq_of_append_eq hc heq
      rw [ih hchunks hrest (List.append_cancel_left heq)]

end MessagePack

namespace Message

open MessagePack

variable {chunks : List Bytes} {records : List Record} {total : Nat} {b : Bytes}

/-! ### Rows of entries -/

/-- The bytes are one packed entry, with the given record. -/
def IsPacked (b : Bytes) (record : Record) : Prop :=
  ∃ entry, Spells b entry ∧ IsEntry entry record

/-- Chunks that hold records spell values. -/
private theorem spells_of_isPacked (h : List.Forall₂ IsPacked chunks records) :
    ∀ c ∈ chunks, ∃ v, Spells c v := by
  induction h with
  | nil => exact List.forall_mem_nil _
  | cons hfirst _ ih =>
    obtain ⟨entry, hspells, -⟩ := hfirst
    exact List.forall_mem_cons.2 ⟨⟨entry, hspells⟩, ih⟩

/-- Of `total` packed bytes, those behind `offset` do not begin with an entry. -/
inductive BadPacked (offset total : Nat) : Bytes → DecodeError → Prop where
  | truncated {b : Bytes} (hread : reader.run b = .incomplete) :
    BadPacked offset total b (.entry (.truncated offset total))
  | codec {b : Bytes} {error : MessagePack.Error} (hread : reader.run b = .failed error) :
    BadPacked offset total b (.codec (.messagePack error))
  | entry {b rest : Bytes} {v : Value} {e : DecodeError} (hread : reader.run b = .done v rest)
    (hentry : BadEntry v e) : BadPacked offset total b e

/-- At the end of the blob the records are those gathered. -/
theorem packedRecords_nil (total : Nat) (acc : List Record) :
    packedRecords total acc [] = .ok acc.reverse := by
  rw [packedRecords, if_pos rfl]

/-- Entries at the front of packed bytes give their records. -/
private theorem packedRecords_append (h : List.Forall₂ IsPacked chunks records) (acc : List Record)
    (rest : Bytes) :
    packedRecords total acc (chunks.flatten ++ rest) =
      packedRecords total (records.reverse ++ acc) rest := by
  induction h generalizing acc with
  | nil => rfl
  | cons hfirst _ ih =>
    obtain ⟨entry, hspells, hentry⟩ := hfirst
    rw [List.flatten_cons, List.append_assoc, packedRecords_of_done (hspells.run_append _),
      (decides_recordOf entry).ok_iff.2 hentry]
    simp only [ih, List.reverse_cons, List.append_assoc, List.singleton_append]

/-- An entry that breaks off is reported with its offset and the length of the blob. -/
private theorem packedRecords_of_incomplete (hne : b ≠ []) (h : reader.run b = .incomplete)
    (acc : List Record) :
    packedRecords total acc b = .error (.entry (.truncated (total - b.length) total)) := by
  rw [packedRecords, if_neg hne]
  split
  · rename_i hdone
    rw [h] at hdone
    cases hdone
  · rfl
  · rename_i hfailed
    rw [h] at hfailed
    cases hfailed

/-- An entry that is no MessagePack is reported as such. -/
private theorem packedRecords_of_failed (hne : b ≠ []) {error : MessagePack.Error}
    (h : reader.run b = .failed error) (acc : List Record) :
    packedRecords total acc b = .error (.codec (.messagePack error)) := by
  rw [packedRecords, if_neg hne]
  split
  · rename_i hdone
    rw [h] at hdone
    cases hdone
  · rename_i hincomplete
    rw [h] at hincomplete
    cases hincomplete
  · rename_i hfailed
    rw [h] at hfailed
    cases hfailed
    rfl

/-- The first bad entry is reported. -/
private theorem packedRecords_of_bad {e : DecodeError} (hne : b ≠ [])
    (h : BadPacked (total - b.length) total b e) (acc : List Record) :
    packedRecords total acc b = .error e := by
  cases h with
  | truncated hread => exact packedRecords_of_incomplete hne hread acc
  | codec hread => exact packedRecords_of_failed hne hread acc
  | entry hread hentry =>
    rw [packedRecords_of_done hread, (decides_recordOf _).error_iff.2 hentry]

/-- Packed bytes are a row of entries, or there is a first place where none begins. -/
private theorem packed_cases (total : Nat) (b : Bytes) :
    (∃ chunks records, chunks.flatten = b ∧ List.Forall₂ IsPacked chunks records) ∨
      ∃ chunks records rest e, b = chunks.flatten ++ rest ∧ rest ≠ [] ∧
        List.Forall₂ IsPacked chunks records ∧
          BadPacked (total - rest.length) total rest e := by
  by_cases hnil : b = []
  · exact .inl ⟨[], [], hnil.symm, .nil⟩
  cases hread : reader.run b with
  | incomplete => exact .inr ⟨[], [], b, _, rfl, hnil, .nil, .truncated hread⟩
  | failed error => exact .inr ⟨[], [], b, _, rfl, hnil, .nil, .codec hread⟩
  | done v rest =>
    rcases (decides_recordOf v).total with ⟨record, hentry⟩ | ⟨e, hentry⟩
    · obtain ⟨front, rfl, hspells⟩ := exists_spells hread
      have hshorter : rest.length < (front ++ rest).length := reader.progress hread
      refine (packed_cases total rest).imp ?_ ?_
      · rintro ⟨chunks, records, rfl, hchunks⟩
        exact ⟨front :: chunks, record :: records, rfl, .cons ⟨v, hspells, hentry⟩ hchunks⟩
      · rintro ⟨chunks, records, rest, e, rfl, hne, hchunks, hbad⟩
        refine ⟨front :: chunks, record :: records, rest, e, ?_, hne,
          .cons ⟨v, hspells, hentry⟩ hchunks, hbad⟩
        rw [List.flatten_cons, List.append_assoc]
    · exact .inr ⟨[], [], b, e, rfl, hnil, .nil, .entry hread hentry⟩
termination_by b.length

/-- **Unpacking** succeeds on rows of entries, and fails at the first place where none begins. -/
theorem decides_unpack (b : Bytes) :
    Decides (unpack b)
      (fun records => ∃ chunks : List Bytes, chunks.flatten = b ∧
        List.Forall₂ IsPacked chunks records)
      fun e => ∃ (chunks : List Bytes) (records : List Record) (rest : Bytes),
        b = chunks.flatten ++ rest ∧ rest ≠ [] ∧ List.Forall₂ IsPacked chunks records ∧
          BadPacked chunks.flatten.length b.length rest e := by
  have hoffset (front rest : Bytes) : (front ++ rest).length - rest.length = front.length := by
    rw [List.length_append, Nat.add_sub_cancel]
  refine .of_sound ?_ ?_ ?_
  · rintro records ⟨chunks, rfl, hchunks⟩
    have hall : packedRecords chunks.flatten.length [] (chunks.flatten ++ []) =
        packedRecords chunks.flatten.length (records.reverse ++ []) [] :=
      packedRecords_append hchunks [] []
    rwa [packedRecords_nil, List.append_nil, List.append_nil, List.reverse_reverse] at hall
  · rintro e ⟨chunks, records, rest, rfl, hne, hchunks, hbad⟩
    rw [unpack, packedRecords_append hchunks]
    rw [← hoffset] at hbad
    exact packedRecords_of_bad hne hbad _
  · refine (packed_cases b.length b).imp ?_ ?_
    · rintro ⟨chunks, records, hflatten, hchunks⟩
      exact ⟨records, chunks, hflatten, hchunks⟩
    · rintro ⟨chunks, records, rest, e, rfl, hne, hchunks, hbad⟩
      rw [hoffset] at hbad
      exact ⟨e, chunks, records, rest, rfl, hne, hchunks, hbad⟩

/-! ### Cuts -/

/-- Where the first `j` of several byte strings end, one put behind the other. -/
def boundary (chunks : List Bytes) (j : Nat) : Nat :=
  (chunks.take j).flatten.length

/-- Boundaries lie behind the chunks before them. -/
private theorem boundary_succ_cons (c : Bytes) (chunks : List Bytes) (j : Nat) :
    boundary (c :: chunks) (j + 1) = c.length + boundary chunks j := by
  rw [boundary, List.take_succ_cons, List.flatten_cons, List.length_append, boundary]

/-- Bytes that are cut where one of the parts ends. -/
private theorem take_boundary (chunks : List Bytes) (j : Nat) :
    chunks.flatten.take (boundary chunks j) = (chunks.take j).flatten := by
  have hsplit : chunks.flatten = (chunks.take j).flatten ++ (chunks.drop j).flatten := by
    rw [← List.flatten_append, List.take_append_drop]
  rw [hsplit, boundary]
  exact List.take_left

/-- Bytes that are cut elsewhere are cut inside of one of the parts. -/
private theorem exists_cut {chunks : List Bytes} {p : Nat} (hp : p ≤ chunks.flatten.length)
    (hcut : ∀ j ≤ chunks.length, p ≠ boundary chunks j) :
    ∃ j < chunks.length, boundary chunks j < p ∧ p < boundary chunks (j + 1) ∧
      ∃ front rest, chunks.flatten.take p = (chunks.take j).flatten ++ front ∧
        front ≠ [] ∧ rest ≠ [] ∧ front ++ rest ∈ chunks := by
  induction chunks generalizing p with
  | nil => exact absurd (Nat.le_zero.1 hp) (hcut 0 (Nat.zero_le _))
  | cons c chunks ih =>
    have hpos : 0 < p := Nat.pos_of_ne_zero (hcut 0 (Nat.zero_le _))
    -- the cut lies in the first part, or else it is a cut of the parts behind it
    by_cases hin : p < c.length
    · refine ⟨0, Nat.succ_pos _, hpos, ?_, c.take p, c.drop p, ?_, ?_, ?_, ?_⟩
      · rw [boundary_succ_cons]
        exact Nat.lt_add_right _ hin
      · rw [List.flatten_cons, List.take_append_of_le_length hin.le]
        rfl
      · exact List.ne_nil_of_length_pos (by rw [List.length_take]; omega)
      · exact List.ne_nil_of_length_pos (by rw [List.length_drop]; omega)
      · rw [List.take_append_drop]
        exact List.mem_cons_self
    · obtain ⟨q, rfl⟩ := Nat.exists_eq_add_of_le (Nat.not_lt.1 hin)
      rw [List.flatten_cons, List.length_append] at hp
      have hlater : ∀ j ≤ chunks.length, q ≠ boundary chunks j := by
        rintro j hj rfl
        exact hcut (j + 1) (Nat.succ_le_succ hj) (boundary_succ_cons c chunks j).symm
      obtain ⟨j, hj, hlow, hhigh, front, rest, htake, hfront, hrest, hmem⟩ :=
        ih (Nat.le_of_add_le_add_left hp) hlater
      refine ⟨j + 1, Nat.succ_lt_succ hj, ?_, ?_, front, rest, ?_, hfront, hrest,
        List.mem_cons_of_mem c hmem⟩
      · rw [boundary_succ_cons]
        exact Nat.add_lt_add_left hlow _
      · rw [boundary_succ_cons]
        exact Nat.add_lt_add_left hhigh _
      · rw [List.flatten_cons, List.take_length_add_append, htake, List.take_succ_cons,
          List.flatten_cons, List.append_assoc]

/-- **Rows of entries.**  Unpacking a row of entries gives their records in order.  Cut off behind
the `j`-th entry the row gives the first `j` records, and cut off inside of an entry it is refused,
with the place where that entry begins and the length that is left.  Bytes that can be unpacked are
a row of entries, and they are no other row of values. -/
theorem unpack_tiles :
    (∀ (chunks : List Bytes) (records : List Record), List.Forall₂ IsPacked chunks records →
      unpack chunks.flatten = .ok records ∧
        (∀ j ≤ chunks.length,
          unpack (chunks.flatten.take (boundary chunks j)) = .ok (records.take j)) ∧
        ∀ p ≤ chunks.flatten.length, (∀ j ≤ chunks.length, p ≠ boundary chunks j) →
          ∃ j < chunks.length, boundary chunks j < p ∧ p < boundary chunks (j + 1) ∧
            unpack (chunks.flatten.take p) =
              .error (.entry (.truncated (boundary chunks j) p))) ∧
    ∀ (b : Bytes) (records : List Record), unpack b = .ok records →
      ∃ chunks : List Bytes, chunks.flatten = b ∧ List.Forall₂ IsPacked chunks records ∧
        ∀ others : List Bytes, others.flatten = b → (∀ c ∈ others, ∃ v, Spells c v) →
          others = chunks := by
  constructor
  · intro chunks records h
    refine ⟨(decides_unpack _).ok_iff.2 ⟨chunks, rfl, h⟩, fun j _ => ?_, fun p hp hcut => ?_⟩
    · rw [take_boundary]
      exact (decides_unpack _).ok_iff.2 ⟨chunks.take j, rfl, List.forall₂_take j h⟩
    · obtain ⟨j, hj, hlow, hhigh, front, rest, htake, hfront, hrest, hmem⟩ := exists_cut hp hcut
      refine ⟨j, hj, hlow, hhigh, (decides_unpack _).error_iff.2 ?_⟩
      -- in front of the cut stand the first entries and the beginning of the next one
      have hlength : (chunks.flatten.take p).length = p := by
        rw [List.length_take, Nat.min_eq_left hp]
      rw [htake] at hlength
      refine ⟨chunks.take j, records.take j, front, htake, hfront, List.forall₂_take j h, ?_⟩
      rw [htake, hlength]
      obtain ⟨v, hspells⟩ := spells_of_isPacked h _ hmem
      exact .truncated (hspells.run_cut hrest)
  · intro b records h
    obtain ⟨chunks, hflatten, hchunks⟩ := (decides_unpack b).ok_iff.1 h
    refine ⟨chunks, hflatten, hchunks, fun others hothers hspells => ?_⟩
    exact eq_of_flatten_eq hspells (spells_of_isPacked hchunks) (hothers.trans hflatten.symm)

set_option maxRecDepth 4000 in
/-- Two entries, the second one with words that are wider than they have to be, and the two of them
cut inside of the second one. -/
theorem unpack_tiles_two :
    let first : Bytes := [0x92, 0x10, 0x80]
    let second : Bytes := [0xDC, 0x00, 0x02, 0xCD, 0x00, 0x05, 0xDE, 0x00, 0x00]
    unpack (first ++ second) = .ok [⟨16, []⟩, ⟨5, []⟩] ∧ unpack first = .ok [⟨16, []⟩] ∧
      unpack ((first ++ second).take 7) = .error (.entry (.truncated 3 7)) ∧
      ∀ others : List Bytes, others.flatten = first ++ second →
        (∀ c ∈ others, ∃ v, Spells c v) → others = [first, second] := by
  intro first second
  have hfirst : IsPacked first ⟨16, []⟩ :=
    ⟨.array [.uint 16, .map []], by with_unfolding_all rfl, .pair (.uint 16)⟩
  have hsecond : IsPacked second ⟨5, []⟩ :=
    ⟨.array [.uint 5, .map []], by with_unfolding_all rfl, .pair (.uint 5)⟩
  obtain ⟨hall, hboundary, hcut⟩ :=
    unpack_tiles.1 [first, second] _ (.cons hfirst (.cons hsecond .nil))
  have hinside : ∀ j ≤ 2, 7 ≠ boundary [first, second] j := by decide
  obtain ⟨j, hj, hlow, hhigh, hrefused⟩ := hcut 7 (by decide) hinside
  obtain rfl : j = 1 := by
    have hfirstOnly : boundary [first, second] (0 + 1) = 3 := rfl
    rcases j with _ | _ | j
    · omega
    · rfl
    · simp at hj
  obtain ⟨chunks, -, -, honly⟩ := unpack_tiles.2 _ _ hall
  have hspells : ∀ c ∈ [first, second], ∃ v, Spells c v :=
    spells_of_isPacked (.cons hfirst (.cons hsecond .nil))
  refine ⟨hall, hboundary 1 (by decide), hrefused, fun others hothers hvalues => ?_⟩
  rw [honly others hothers hvalues, honly [first, second] rfl hspells]

end Message

end ForwardIntake
