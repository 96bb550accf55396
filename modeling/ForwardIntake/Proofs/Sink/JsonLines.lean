import ForwardIntake.Proofs.Json.OneLine
import ForwardIntake.Proofs.Sink.Offers

/-!
# JSON lines are framed and whole

Whatever batches are offered to a sink of JSON lines, and whichever of its writes fail, it has
written the lines of the batches that were delivered, in their order, and nothing else.  The text of
a batch has one line for each of its records, and only line feeds that end a line, for a written
value stays on its line (`Json.oneLine_write`).  A line is read back as the object of its record
(`document_lineText`).
-/

namespace ForwardIntake

/-- The records of a batch in order, each with its tag. -/
def Batch.entries (batch : Batch) : List (String × Record) :=
  batch.flatMap fun set => set.records.map (set.tag, ·)

/-- A batch has an entry for each record. -/
private theorem Batch.length_entries (batch : Batch) : batch.entries.length = batch.records := by
  induction batch with
  | nil => rfl
  | cons set rest ih =>
    rw [Batch.entries, List.flatMap_cons, List.length_append, List.length_map, Batch.records, ← ih]
    rfl

namespace JsonLines

open Value

variable {s : JsonLines} {batch : Batch} {tag : String} {record : Record} {error : IoError}

/-! ### Lines -/

/-- The object that a line holds. -/
def lineValue (tag : String) (record : Record) : Value :=
  .map [("record", .map record.fields), ("tag", .text tag), ("time", .uint record.time)]

/-- The line of a record without its line feed.  Its fields stand in an order of their own. -/
def lineText (tag : String) (record : Record) : Bytes :=
  Json.write
    (.map [("tag", .text tag), ("time", .uint record.time), ("record", .map record.fields)])

/-- A line has no line feed inside. -/
private theorem lineFeed_not_mem_lineText (tag : String) (record : Record) :
    0x0A ∉ lineText tag record :=
  (Json.oneLine_write _).lineFeed_not_mem

/-- The text of a batch is a line for each entry, each with its line feed. -/
private theorem lines_eq (batch : Batch) :
    lines batch = batch.entries.flatMap fun entry => lineText entry.1 entry.2 ++ [0x0A] := by
  rw [Batch.entries, List.flatMap_assoc]
  simp only [List.flatMap_map]
  rfl

/-- Only a batch without records has no text. -/
private theorem lines_eq_nil_iff : lines batch = [] ↔ batch.records = 0 := by
  rw [← Batch.length_entries, List.length_eq_zero_iff, lines_eq]
  cases batch.entries with
  | nil => exact iff_of_true rfl rfl
  | cons entry rest => simp

/-- There are no more line feeds than lines. -/
private theorem count_lines (batch : Batch) : (lines batch).count 0x0A = batch.records := by
  rw [lines_eq, ← Batch.length_entries]
  generalize batch.entries = entries
  induction entries with
  | nil => rfl
  | cons entry rest ih =>
    rw [List.flatMap_cons, List.count_append, List.count_append, ih,
      List.count_eq_zero.2 (lineFeed_not_mem_lineText entry.1 entry.2), List.count_singleton_self,
      Nat.zero_add, List.length_cons, Nat.add_comm]

/-- Splitting the text of a batch at the line feeds gives back its lines, and no byte behind
them. -/
private theorem splitOn_lines (batch : Batch) :
    (lines batch).splitOn 0x0A =
      batch.entries.map (fun entry => lineText entry.1 entry.2) ++ [[]] := by
  rw [lines_eq]
  generalize batch.entries = entries
  induction entries with
  | nil => rfl
  | cons entry rest ih =>
    rw [List.flatMap_cons, List.append_assoc, List.singleton_append,
      List.splitOn_append_cons_self_of_not_mem (lineFeed_not_mem_lineText entry.1 entry.2), ih]
    rfl

/-! ### Reading a line -/

/-- The fields of a line are read into the order of their keys. -/
private theorem received_line (tag : String) (time : UInt64) (v : Value) :
    (Value.map [("tag", .text tag), ("time", .uint time), ("record", v)]).received =
      .map [("record", v.received), ("tag", .text tag), ("time", .uint time)] := by
  have htime : ¬"time" < "tag" := by decide
  simp only [received, receivedFields, Fields.ofList, List.foldl_cons, List.foldl_nil,
    Fields.insert, if_neg htime]
  rfl

/-- **A line is read back** as the object of its record. -/
private theorem document_lineText (htext : (Value.map record.fields).Textual)
    (hordered : (Value.map record.fields).Ordered) (hfloat : (Value.map record.fields).Floatless)
    (hdepth : (lineValue tag record).depth ≤ Json.maxDepth) :
    Json.document (lineText tag record) = .done (lineValue tag record).unsigned [] := by
  let line : Value :=
    .map [("tag", .text tag), ("time", .uint record.time), ("record", .map record.fields)]
  have hline : line.depth ≤ Json.maxDepth := by
    simp only [line, lineValue, depth, fieldsDepth] at hdepth ⊢
    omega
  -- the reader sorts the three fields, and changes no more than some integers below them
  have hrun := Json.run_write line ⟨trivial, trivial, htext, trivial⟩
    ⟨trivial, trivial, hfloat, trivial⟩ Json.maxDepth hline [] Json.endsNumber_nil
  rw [List.append_nil, received_line, received_of_ordered _ hordered] at hrun
  rw [Json.document, lineText, hrun]
  rfl

/-- The line of a record that was made of fields is read back. -/
private theorem document_lineText_ofFields {time : UInt64} {fields : Fields}
    (hrecord : record = .ofFields time fields) (hordered : (Value.map fields).Ordered)
    (hfloat : (Value.map record.fields).Floatless)
    (hdepth : (lineValue tag record).depth ≤ Json.maxDepth) :
    Json.document (lineText tag record) = .done (lineValue tag record).unsigned [] := by
  subst hrecord
  exact document_lineText (Record.textual_ofFields time fields)
    (ordered_normalize (.map fields) hordered) hfloat hdepth

/-! ### Writes -/

/-- A batch without records is delivered without a write. -/
private theorem emit_of_records_eq_zero (h : batch.records = 0) :
    s.emit batch = (.delivered, s) := by
  rw [emit, lines_eq_nil_iff.2 h]

/-- Any other batch is one write. -/
private theorem emit_of_records_ne_zero (h : batch.records ≠ 0) :
    s.emit batch =
      ((s.writer.write (lines batch)).1.elim .delivered fun error => .refused (.io error),
        ⟨(s.writer.write (lines batch)).2⟩) := by
  rw [emit]
  split
  · rename_i hnil
    exact absurd (lines_eq_nil_iff.1 hnil) h
  · split
    · rename_i hwrite
      rw [hwrite]
      rfl
    · rename_i hwrite
      rw [hwrite]
      rfl

/-- A write that succeeds delivers the batch. -/
private theorem emit_of_taken (h : batch.records ≠ 0)
    (hnone : s.writer.faults s.writer.calls = none) :
    (s.emit batch).1 = .delivered ∧
      (s.emit batch).2.writer.text = s.writer.text ++ lines batch := by
  rw [emit_of_records_ne_zero h, Writer.write, hnone]
  refine ⟨rfl, ?_⟩
  simp only [Writer.text, List.reverse_cons, List.flatten_append, List.flatten_singleton]

/-- A write that fails refuses it and leaves the text. -/
private theorem emit_of_fault (h : batch.records ≠ 0)
    (hsome : s.writer.faults s.writer.calls = some error) :
    (s.emit batch).1 = .refused (.io error) ∧ (s.emit batch).2.writer.text = s.writer.text := by
  rw [emit_of_records_ne_zero h, Writer.write, hsome]
  exact ⟨rfl, rfl⟩

/-- A batch is written whole if it is delivered, and not at all if it is not. -/
private theorem text_emit (s : JsonLines) (batch : Batch) :
    (s.emit batch).2.writer.text =
      if (s.emit batch).1 = .delivered then s.writer.text ++ lines batch else s.writer.text := by
  by_cases h : batch.records = 0
  · rw [emit_of_records_eq_zero h, if_pos rfl, lines_eq_nil_iff.2 h, List.append_nil]
  · cases hfault : s.writer.faults s.writer.calls with
    | none =>
      obtain ⟨hdelivered, htext⟩ := emit_of_taken h hfault
      rw [if_pos hdelivered, htext]
    | some error =>
      obtain ⟨hrefused, htext⟩ := emit_of_fault h hfault
      rw [hrefused, if_neg nofun, htext]

/-- The lines of the batches that are delivered are written, in their order. -/
private theorem text_emitAll (s : JsonLines) (batches : List Batch) :
    (Sink.emitAll s batches).writer.text =
      s.writer.text ++ (Sink.delivered s batches).flatMap lines := by
  induction batches generalizing s with
  | nil => exact (List.append_nil _).symm
  | cons batch rest ih =>
    -- the run goes on from the sink behind the first batch
    have hrest : (Sink.emitAll s (batch :: rest)).writer.text =
        (s.emit batch).2.writer.text ++ (Sink.delivered (s.emit batch).2 rest).flatMap lines :=
      ih (s.emit batch).2
    rw [hrest, text_emit, Sink.delivered]
    by_cases h : (s.emit batch).1 = .delivered
    · have h' : (Sink.emit s batch).1 = .delivered := h
      rw [if_pos h, if_pos h', List.flatMap_cons, List.append_assoc]
      rfl
    · have h' : ¬(Sink.emit s batch).1 = .delivered := h
      rw [if_neg h, if_neg h']
      rfl

/-! ### The output -/

/-- **Output is framed and whole.**  After any batches, with any writes that fail, a sink has
written the texts of those that were delivered, in their order.  A batch with records is delivered
unless its write fails; then nothing of it is written and it is refused with the error.  A batch
without records is delivered with no write.  In the text of a batch every line feed ends a line, and
the lines are those of its records; the line of a record without floats is read back as the object
of the record, if it is nested no deeper than is allowed. -/
theorem output_framed :
    (∀ (s : JsonLines) (batches : List Batch),
      (Sink.emitAll s batches).writer.text =
        s.writer.text ++ (Sink.delivered s batches).flatMap lines) ∧
    (∀ (s : JsonLines) (batch : Batch),
      (batch.records = 0 → s.emit batch = (.delivered, s)) ∧
      (batch.records ≠ 0 → s.writer.faults s.writer.calls = none →
        (s.emit batch).1 = .delivered ∧
          (s.emit batch).2.writer.text = s.writer.text ++ lines batch) ∧
      (batch.records ≠ 0 → ∀ error, s.writer.faults s.writer.calls = some error →
        (s.emit batch).1 = .refused (.io error) ∧
          (s.emit batch).2.writer.text = s.writer.text)) ∧
    (∀ batch : Batch,
      (lines batch).count 0x0A = batch.records ∧
      lines batch = batch.entries.flatMap (fun entry => line entry.1 entry.2) ∧
      ∀ (tag : String) (record : Record), ∃ text, line tag record = text ++ [0x0A] ∧ 0x0A ∉ text) ∧
    ∀ (batch : Batch) (i : Nat) (tag : String) (record : Record),
      batch.entries[i]? = some (tag, record) →
      (∃ time fields, record = .ofFields time fields ∧ (Value.map fields).Ordered) →
      (Value.map record.fields).Floatless → (lineValue tag record).depth ≤ Json.maxDepth →
        ∃ text, ((lines batch).splitOn 0x0A)[i]? = some text ∧
          Json.document text = .done (lineValue tag record).unsigned [] := by
  refine ⟨text_emitAll, fun s batch => ?_, fun batch => ?_, ?_⟩
  · exact ⟨emit_of_records_eq_zero, emit_of_taken, fun h error => emit_of_fault h⟩
  · exact ⟨count_lines batch, lines_eq batch, fun tag record =>
      ⟨lineText tag record, rfl, lineFeed_not_mem_lineText tag record⟩⟩
  · rintro batch i tag record hentry ⟨time, fields, hrecord, hordered⟩ hfloat hdepth
    refine ⟨lineText tag record, ?_,
      document_lineText_ofFields hrecord hordered hfloat hdepth⟩
    have hline : (batch.entries.map fun entry => lineText entry.1 entry.2)[i]? =
        some (lineText tag record) := by
      rw [List.getElem?_map, hentry]
      rfl
    obtain ⟨hlt, -⟩ := List.getElem?_eq_some_iff.1 hline
    rw [splitOn_lines, List.getElem?_append_left hlt, hline]

set_option maxRecDepth 4000 in
/-- A batch of one record, whose tag holds a line feed, is offered three times, with an empty batch
in between, and the second write fails. -/
theorem output_framed_fault :
    let error : IoError := ⟨.storageFull, "full"⟩
    let s : JsonLines := ⟨[], 0, fun n => if n = 1 then some error else none⟩
    let record : Record := ⟨16, [("k", .int 5)]⟩
    let batch : Batch := [⟨"a\n", [record]⟩]
    let line : Bytes := Json.ascii
      "\x7b\"tag\":\"a\\n\",\"time\":16,\"record\":\x7b\"k\":5\x7d\x7d"
    (Sink.emitAll s [batch, [], batch, batch]).writer.text =
        line ++ [0x0A] ++ (line ++ [0x0A]) ∧
      s.emit [] = (.delivered, s) ∧ (s.emit batch).1 = .delivered ∧
      ((s.emit batch).2.emit batch).1 = .refused (.io error) ∧
      (lines batch).count 0x0A = 1 ∧
      Json.document line = .done (.map [("record", .map [("k", .uint 5)]), ("tag", .text "a\n"),
        ("time", .uint 16)]) [] := by
  intro error s record batch line
  obtain ⟨htext, hemit, hcount, hread⟩ := output_framed
  obtain ⟨-, htaken, -⟩ := hemit s batch
  obtain ⟨-, -, hfault⟩ := hemit (s.emit batch).2 batch
  have hlines : lines batch = line ++ [0x0A] := by decide
  have hdelivered : Sink.delivered s [batch, [], batch, batch] = [batch, [], batch] := rfl
  obtain ⟨text, hline, hdocument⟩ := hread batch 0 "a\n" record rfl
    ⟨16, [("k", .int 5)], rfl, List.pairwise_singleton _ _, trivial, trivial⟩
    ⟨trivial, trivial⟩ (by decide)
  refine ⟨?_, (hemit s []).1 rfl, (htaken (by decide) rfl).1, (hfault (by decide) error rfl).1,
    (hcount batch).1, ?_⟩
  · rw [htext, hdelivered]
    simp only [List.flatMap_cons, hlines]
    rfl
  · have hsplit : (line ++ [0x0A]).splitOn 0x0A = [line, []] := by decide
    rw [hlines, hsplit] at hline
    obtain rfl := Option.some.inj hline
    exact hdocument

end JsonLines

end ForwardIntake
