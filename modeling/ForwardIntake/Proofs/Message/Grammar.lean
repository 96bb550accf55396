import ForwardIntake.Proofs.Message.Packing

/-!
# What a message is

A message is an array of a tag and of what carries its records: a time with fields, an array of
entries or packed entries.  Whatever comes behind that is an option.  Every value of this form is
accepted with just these records, and every other value is refused with the first of its faults, in
the order message, tag, shape, entries (`message_grammar`).
-/

namespace ForwardIntake

namespace Message

/-! ### What carries records -/

/-- The elements of a message behind its tag, with the records that they carry. -/
inductive Carries : List Value → List Record → Prop where
  | event {second : Value} {time : UInt64} {fields : Fields} {rest : List Value}
    (htime : IsTime second time) : Carries (second :: .map fields :: rest) [.ofFields time fields]
  | entries {entries rest : List Value} {records : List Record}
    (hentries : List.Forall₂ IsEntry entries records) : Carries (.array entries :: rest) records
  | packed {chunks : List Bytes} {rest : List Value} {records : List Record}
    (hchunks : List.Forall₂ IsPacked chunks records) :
    Carries (.binary chunks.flatten :: rest) records

/-- The elements of a message behind its tag carry no records. -/
inductive BadRecords : List Value → DecodeError → Prop where
  | shape {second : Value} {rest : List Value}
    (hkind : second.kind ∉ [.unsigned, .float, .array, .binary]) :
    BadRecords (second :: rest) (.unknownShape second.kind)
  | time {x : Binary64} {rest : List Value} {e : DecodeError} (htime : BadTime (.float x) e) :
    BadRecords (.float x :: rest) e
  | fields {second : Value} {time : UInt64} {rest : List Value} {e : DecodeError}
    (htime : IsTime second time) (hfields : BadFields rest.head? e) : BadRecords (second :: rest) e
  | entry {before after rest : List Value} {entry : Value} {records : List Record}
    {e : DecodeError} (hbefore : List.Forall₂ IsEntry before records) (hentry : BadEntry entry e) :
    BadRecords (.array (before ++ entry :: after) :: rest) e
  | packed {chunks : List Bytes} {b : Bytes} {rest : List Value} {records : List Record}
    {e : DecodeError} (hbefore : List.Forall₂ IsPacked chunks records) (hne : b ≠ [])
    (hbad : BadPacked chunks.flatten.length (chunks.flatten ++ b).length b e) :
    BadRecords (.binary (chunks.flatten ++ b) :: rest) e

/-- With a time in second place the message is an event, and its fields come third. -/
private theorem recordsOfShape_of_isTime {second : Value} {time : UInt64} (h : IsTime second time)
    (rest : List Value) :
    recordsOfShape second rest =
      (fieldsOf rest.head?).map fun fields => [Record.ofFields time fields] := by
  cases h with
  | uint =>
    rw [recordsOfShape]
    cases fieldsOf rest.head? with
    | ok fields => rfl
    | error e => rfl
  | float hrange hwhole =>
    rw [recordsOfShape, (decides_timeOfFloat _).ok_iff.2 (.float hrange hwhole)]
    cases fieldsOf rest.head? with
    | ok fields => rfl
    | error e => rfl

/-- A time stands for an event, whether its fields are there or not. -/
private theorem carries_or_bad_of_isTime {second : Value} {time : UInt64} (h : IsTime second time)
    (rest : List Value) :
    (∃ records, Carries (second :: rest) records) ∨ ∃ e, BadRecords (second :: rest) e := by
  rcases (decides_fieldsOf rest.head?).total with ⟨fields, hfields⟩ | ⟨e, hfields⟩
  · obtain ⟨rest, rfl⟩ := List.head?_eq_some_iff.1 hfields
    exact .inl ⟨_, .event h⟩
  · exact .inr ⟨e, .fields h hfields⟩

/-- The parts behind the tag carry records, or the grammar says what is wrong with them. -/
private theorem carries_or_bad (second : Value) (rest : List Value) :
    (∃ records, Carries (second :: rest) records) ∨ ∃ e, BadRecords (second :: rest) e := by
  cases second with
  | uint time => exact carries_or_bad_of_isTime (.uint time) rest
  | float x =>
    rcases (decides_timeOf (.float x)).total with ⟨time, htime⟩ | ⟨e, htime⟩
    · exact carries_or_bad_of_isTime htime rest
    · exact .inr ⟨e, .time htime⟩
  | array entries =>
    rcases (decides_recordsOf entries).total with ⟨records, h⟩ | ⟨e, _, _, _, _, rfl, hbefore, h⟩
    · exact .inl ⟨records, .entries h⟩
    · exact .inr ⟨e, .entry hbefore h⟩
  | binary b =>
    rcases (decides_unpack b).total with
      ⟨records, _, rfl, h⟩ | ⟨e, _, _, _, rfl, hne, hbefore, h⟩
    · exact .inl ⟨records, .packed h⟩
    · exact .inr ⟨e, .packed hbefore hne h⟩
  | _ => exact .inr ⟨_, .shape (by simp)⟩

/-- The reader of the parts decides between the two. -/
private theorem decides_recordsOfShape (second : Value) (rest : List Value) :
    Decides (recordsOfShape second rest) (Carries (second :: rest))
      (BadRecords (second :: rest)) := by
  refine .of_sound ?_ ?_ (carries_or_bad second rest)
  · intro records h
    cases h with
    | event htime =>
      rw [recordsOfShape_of_isTime htime]
      rfl
    | entries hentries => exact (decides_recordsOf _).ok_iff.2 hentries
    | packed hchunks => exact (decides_unpack _).ok_iff.2 ⟨_, rfl, hchunks⟩
  · intro e h
    cases h with
    | shape hkind =>
      cases second with
      | uint | float | array | binary => exact absurd (by simp) hkind
      | _ => rfl
    | time htime =>
      have htime := (decides_timeOf _).error_iff.2 htime
      rw [timeOf] at htime
      rw [recordsOfShape, htime]
      rfl
    | fields htime hfields =>
      rw [recordsOfShape_of_isTime htime, (decides_fieldsOf _).error_iff.2 hfields]
      rfl
    | entry hbefore hentry =>
      exact (decides_recordsOf _).error_iff.2 ⟨_, _, _, _, rfl, hbefore, hentry⟩
    | packed hbefore hne hbad =>
      exact (decides_unpack _).error_iff.2 ⟨_, _, _, rfl, hne, hbefore, hbad⟩

/-! ### Messages -/

/-- The value is a message with the given record set. -/
inductive IsMessage : Value → RecordSet → Prop where
  | mk {tag : Value} {s : String} {parts : List Value} {records : List Record}
    (htag : IsTag tag s) (hparts : Carries parts records) :
    IsMessage (.array (tag :: parts)) ⟨s, records⟩

/-- The value is no message: it is no array of at least two elements, or else its tag is none, or
else the elements behind the tag carry no records. -/
inductive BadMessage : Value → DecodeError → Prop where
  | notArray {m : Value} (harray : m.kind ≠ .array) : BadMessage m (.notArray m.kind)
  | tooShort {items : List Value} (hshort : items.length < 2) :
    BadMessage (.array items) (.tooShort items.length)
  | tag {tag second : Value} {rest : List Value} {e : DecodeError} (htag : BadTag tag e) :
    BadMessage (.array (tag :: second :: rest)) e
  | records {tag : Value} {s : String} {parts : List Value} {e : DecodeError} (htag : IsTag tag s)
    (hparts : BadRecords parts e) : BadMessage (.array (tag :: parts)) e

/-- A message has a tag and one more part. -/
private theorem ofValue_of_short {items : List Value} (h : items.length < 2) :
    RecordSet.ofValue (.array items) = .error (.tooShort items.length) := by
  rcases items with _ | ⟨first, _ | ⟨second, rest⟩⟩
  · rfl
  · rfl
  · simp at h

/-- Every value is a message, or the grammar says what is wrong with it. -/
private theorem message_or_bad (m : Value) : (∃ set, IsMessage m set) ∨ ∃ e, BadMessage m e := by
  cases m with
  | array items =>
    rcases items with _ | ⟨tag, _ | ⟨second, rest⟩⟩
    · exact .inr ⟨_, .tooShort (by simp)⟩
    · exact .inr ⟨_, .tooShort (by simp)⟩
    · rcases (decides_tagOf tag).total with ⟨s, htag⟩ | ⟨e, htag⟩
      · refine (carries_or_bad second rest).imp ?_ ?_
        · rintro ⟨records, hparts⟩
          exact ⟨_, .mk htag hparts⟩
        · rintro ⟨e, hparts⟩
          exact ⟨e, .records htag hparts⟩
      · exact .inr ⟨e, .tag htag⟩
  | _ => exact .inr ⟨_, .notArray (by simp)⟩

/-- **The reader of messages decides** what a message is and which error comes first. -/
theorem decides_ofValue (m : Value) :
    Decides (RecordSet.ofValue m) (IsMessage m) (BadMessage m) := by
  refine .of_sound ?_ ?_ (message_or_bad m)
  · rintro _ ⟨htag, hparts⟩
    rename_i parts _
    obtain ⟨second, rest, rfl⟩ : ∃ second rest, parts = second :: rest := by
      cases hparts with
      | event | entries | packed => exact ⟨_, _, rfl⟩
    rw [RecordSet.ofValue, (decides_tagOf _).ok_iff.2 htag,
      (decides_recordsOfShape second rest).ok_iff.2 hparts]
    rfl
  · intro e h
    cases h with
    | notArray harray =>
      cases m with
      | array items => exact absurd rfl harray
      | _ => rfl
    | tooShort hshort => exact ofValue_of_short hshort
    | tag htag =>
      rw [RecordSet.ofValue, (decides_tagOf _).error_iff.2 htag]
      rfl
    | records htag hparts =>
      rename_i parts
      obtain ⟨second, rest, rfl⟩ : ∃ second rest, parts = second :: rest := by
        cases hparts with
        | shape | time | fields | entry | packed => exact ⟨_, _, rfl⟩
      rw [RecordSet.ofValue, (decides_tagOf _).ok_iff.2 htag,
        (decides_recordsOfShape second rest).error_iff.2 hparts]
      rfl

/-! ### Options -/

/-- What follows the fields of an event is not looked at. -/
private theorem recordsOfShape_option (second third : Value) (rest rest' : List Value) :
    recordsOfShape second (third :: rest) = recordsOfShape second (third :: rest') := by
  cases second with
  | _ => rfl

/-- What follows the entries is not looked at. -/
private theorem recordsOfShape_rest {second : Value}
    (h : second.kind = .array ∨ second.kind = .binary) (rest rest' : List Value) :
    recordsOfShape second rest = recordsOfShape second rest' := by
  cases second with
  | array | binary => rfl
  | _ => simp at h

/-- **The grammar of messages.**  A value is accepted with a record set if and only if it is a
message with that record set, and it is refused with an error if and only if that is its first
fault.  Elements behind the fields of an event, behind an array of entries and behind packed entries
have no influence on either. -/
theorem message_grammar :
    (∀ m : Value, (∀ set, RecordSet.ofValue m = .ok set ↔ IsMessage m set) ∧
      ∀ e, RecordSet.ofValue m = .error e ↔ BadMessage m e) ∧
    (∀ (tag second third : Value) (rest rest' : List Value),
      RecordSet.ofValue (.array (tag :: second :: third :: rest)) =
        RecordSet.ofValue (.array (tag :: second :: third :: rest'))) ∧
    ∀ (tag second : Value) (rest rest' : List Value),
      second.kind = .array ∨ second.kind = .binary →
        RecordSet.ofValue (.array (tag :: second :: rest)) =
          RecordSet.ofValue (.array (tag :: second :: rest')) := by
  refine ⟨fun m => ⟨fun set => ?_, fun e => ?_⟩, ?_, ?_⟩
  · exact (decides_ofValue m).ok_iff
  · exact (decides_ofValue m).error_iff
  · intro tag second third rest rest'
    exact ofValue_congr (recordsOfShape_option second third rest rest')
  · intro tag second rest rest' hkind
    exact ofValue_congr (recordsOfShape_rest hkind rest rest')

/-- An event at negative zero, with its tag as raw bytes and an option; and entries of which the
second has a negative time and no map, and the third is none at all. -/
theorem message_grammar_zero :
    let event : Value := .array [.binary [0x61], .float ⟨0x8000000000000000⟩, .map [], .nil]
    let early : Binary64 := ⟨0xBFF0000000000000⟩
    let entries : Value := .array [.array [.uint 1, .map []], .array [.float early, .nil], .nil]
    RecordSet.ofValue event = .ok ⟨"a", [⟨0, []⟩]⟩ ∧
      RecordSet.ofValue (.array [.text "a", entries]) = .error (.time early) ∧
      RecordSet.ofValue (.array [.text "a", entries]) =
        RecordSet.ofValue (.array [.text "a", entries, .nil]) := by
  intro event early entries
  obtain ⟨hdecided, -, hoption⟩ := message_grammar
  refine ⟨(hdecided event).1 _ |>.2 ?_, (hdecided _).2 _ |>.2 ?_, hoption _ _ _ _ (.inl rfl)⟩
  · have htext : Utf8.decodeLossy [0x61] = "a" := Utf8.decodeLossy_encode "a"
    have htag : IsTag (.binary [0x61]) "a" := htext ▸ .binary [0x61]
    have hzero : (⟨0x8000000000000000⟩ : Binary64).truncate? = some 0 := by decide
    obtain ⟨hrange, hwhole⟩ := Binary64.truncate?_eq_some_iff.1 hzero
    exact .mk htag (.event (.float hrange hwhole))
  · have hrange : ¬early.InRange := by
      rw [Binary64.inRange_iff]
      decide
    have hfirst : IsEntry (.array [.uint 1, .map []]) ⟨1, []⟩ := .pair (.uint 1)
    exact .records (.text "a") (.entry (.cons hfirst .nil) (.time (.float hrange)))

end Message

end ForwardIntake
