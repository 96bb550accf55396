import ForwardIntake.Message.Shape
import ForwardIntake.Proofs.Numeric.WholePart

/-!
# Tags, times and entries

What is accepted as the tag of a message, as a time and as an entry, and what is wrong with all
other values, said without the functions that look for it.  Each of these functions gives just what
is said here: its value if there is one, and its error if there is one (`Decides`).

Of the values of a list the first one that is no entry decides, and nothing behind it is looked at
(`decides_recordsOf`).
-/

namespace ForwardIntake

/-! ### Results and what is said of them -/

section Decides

variable {ε α : Type} {x : Except ε α} {P : α → Prop} {Q : ε → Prop}

/-- The value of a result is the one of which `P` holds, its error the one of which `Q` holds. -/
structure Decides (x : Except ε α) (P : α → Prop) (Q : ε → Prop) : Prop where
  ok_iff {a : α} : x = .ok a ↔ P a
  error_iff {e : ε} : x = .error e ↔ Q e

/-- A result is decided if what is said of it is so, and something is said in any case. -/
theorem Decides.of_sound (hok : ∀ a, P a → x = .ok a) (herror : ∀ e, Q e → x = .error e)
    (htotal : (∃ a, P a) ∨ ∃ e, Q e) : Decides x P Q := by
  rcases htotal with ⟨b, hb⟩ | ⟨d, hd⟩
  · have hx := hok b hb
    refine ⟨fun {a} => ⟨fun h => ?_, hok a⟩, fun {e} => ⟨fun h => ?_, herror e⟩⟩
    · rw [hx] at h
      rwa [← Except.ok.inj h]
    · rw [hx] at h
      exact absurd h (by simp)
  · have hx := herror d hd
    refine ⟨fun {a} => ⟨fun h => ?_, hok a⟩, fun {e} => ⟨fun h => ?_, herror e⟩⟩
    · rw [hx] at h
      exact absurd h (by simp)
    · rw [hx] at h
      rwa [← Except.error.inj h]

/-- A function that decides leaves no third case. -/
theorem Decides.total (h : Decides x P Q) : (∃ a, P a) ∨ ∃ e, Q e := by
  cases hx : x with
  | ok a => exact .inl ⟨a, h.ok_iff.1 hx⟩
  | error e => exact .inr ⟨e, h.error_iff.1 hx⟩

end Decides

namespace Message

variable {entries : List Value} {records : List Record}

/-! ### Tags -/

/-- The value is a tag with the given text. -/
inductive IsTag : Value → String → Prop where
  | text (s : String) : IsTag (.text s) s
  | binary (b : Bytes) : IsTag (.binary b) (Utf8.decodeLossy b)

/-- The value is no tag. -/
inductive BadTag : Value → DecodeError → Prop where
  | kind {v : Value} (htext : v.kind ≠ .text) (hbinary : v.kind ≠ .binary) : BadTag v (.tag v.kind)

/-- The reader of tags decides what a tag is. -/
theorem decides_tagOf (v : Value) : Decides (tagOf v) (IsTag v) (BadTag v) := by
  refine .of_sound ?_ ?_ ?_
  · rintro _ (_ | _)
    · rfl
    · rfl
  · rintro _ ⟨htext, hbinary⟩
    cases v with
    | text s => exact absurd rfl htext
    | binary b => exact absurd rfl hbinary
    | _ => rfl
  · cases v with
    | text s => exact .inl ⟨s, .text s⟩
    | binary b => exact .inl ⟨_, .binary b⟩
    | _ => exact .inr ⟨_, .kind (by simp) (by simp)⟩

/-! ### Times -/

/-- The value tells a time in seconds. -/
inductive IsTime : Value → UInt64 → Prop where
  | uint (time : UInt64) : IsTime (.uint time) time
  | float {x : Binary64} {time : UInt64} (hrange : x.InRange) (hwhole : time.toNat = ⌊x.toRat⌋₊) :
    IsTime (.float x) time

/-- The value tells no time. -/
inductive BadTime : Value → DecodeError → Prop where
  | float {x : Binary64} (hrange : ¬x.InRange) : BadTime (.float x) (.time x)
  | kind {v : Value} (huint : v.kind ≠ .unsigned) (hfloat : v.kind ≠ .float) :
    BadTime v (.entry (.time v.kind))

/-- A float is a time if and only if it is in range. -/
theorem decides_timeOfFloat (x : Binary64) :
    Decides (timeOfFloat x) (IsTime (.float x)) fun e => ¬x.InRange ∧ e = .time x := by
  by_cases hrange : x.InRange
  · refine .of_sound ?_ (fun e h => absurd hrange h.1) (.inl ?_)
    · rintro _ (_ | ⟨-, hwhole⟩)
      rw [timeOfFloat, Binary64.truncate?_eq_some_iff.2 ⟨hrange, hwhole⟩]
    · have hsome := Binary64.truncate?_of_inRange hrange
      exact ⟨_, .float hrange (Binary64.truncate?_eq_some_iff.1 hsome).2⟩
  · refine .of_sound ?_ ?_ (.inr ⟨_, hrange, rfl⟩)
    · rintro _ (_ | ⟨hin, -⟩)
      exact absurd hin hrange
    · rintro _ ⟨-, rfl⟩
      rw [timeOfFloat, Binary64.truncate?_of_not_inRange hrange]

/-- The reader of times decides what a time is. -/
theorem decides_timeOf (v : Value) : Decides (timeOf v) (IsTime v) (BadTime v) := by
  refine .of_sound ?_ ?_ ?_
  · intro time h
    cases h with
    | uint => rfl
    | float hrange hwhole => exact (decides_timeOfFloat _).ok_iff.2 (.float hrange hwhole)
  · intro e h
    cases h with
    | float hrange => exact (decides_timeOfFloat _).error_iff.2 ⟨hrange, rfl⟩
    | kind huint hfloat =>
      cases v with
      | uint n => exact absurd rfl huint
      | float x => exact absurd rfl hfloat
      | _ => rfl
  · cases v with
    | uint n => exact .inl ⟨n, .uint n⟩
    | float x =>
      refine (decides_timeOfFloat x).total.imp id ?_
      rintro ⟨_, hrange, -⟩
      exact ⟨_, .float hrange⟩
    | _ => exact .inr ⟨_, .kind (by simp) (by simp)⟩

/-! ### Fields -/

/-- There is no map of fields. -/
inductive BadFields : Option Value → DecodeError → Prop where
  | missing : BadFields none (.entry .noFields)
  | kind {v : Value} (hmap : v.kind ≠ .map) : BadFields (some v) (.entry (.fields v.kind))

/-- The reader of fields takes maps only. -/
theorem decides_fieldsOf (v? : Option Value) :
    Decides (fieldsOf v?) (fun fields => v? = some (.map fields)) (BadFields v?) := by
  refine .of_sound ?_ ?_ ?_
  · rintro _ rfl
    rfl
  · rintro _ (_ | hmap)
    · rfl
    · rename_i v
      cases v with
      | map fields => exact absurd rfl hmap
      | _ => rfl
  · rcases v? with _ | v
    · exact .inr ⟨_, .missing⟩
    · cases v with
      | map fields => exact .inl ⟨fields, rfl⟩
      | _ => exact .inr ⟨_, .kind (by simp)⟩

/-! ### Entries -/

/-- The value is an entry, a pair of a time and fields, with the given record. -/
inductive IsEntry : Value → Record → Prop where
  | pair {time : Value} {t : UInt64} {fields : Fields} (htime : IsTime time t) :
    IsEntry (.array [time, .map fields]) (.ofFields t fields)

/-- The value is no entry: it is no pair, or else its first part is no time, or else its second part
is no map. -/
inductive BadEntry : Value → DecodeError → Prop where
  | shape {v : Value} (harray : v.kind ≠ .array) : BadEntry v (.entry (.shape v.kind))
  | length {items : List Value} (hpair : items.length ≠ 2) :
    BadEntry (.array items) (.entry (.length items.length))
  | time {time fields : Value} {e : DecodeError} (htime : BadTime time e) :
    BadEntry (.array [time, fields]) e
  | fields {time fields : Value} {t : UInt64} {e : DecodeError} (htime : IsTime time t)
    (hfields : BadFields (some fields) e) : BadEntry (.array [time, fields]) e

/-- An entry is a pair. -/
private theorem recordOf_of_length_ne {items : List Value} (h : items.length ≠ 2) :
    recordOf (.array items) = .error (.entry (.length items.length)) := by
  rw [recordOf.eq_def]
  split
  · rename_i heq
    cases heq
    exact absurd rfl h
  · rename_i heq
    cases heq
    rfl
  · rename_i harray
    exact absurd rfl (harray items)

/-- The reader of entries decides what an entry is. -/
theorem decides_recordOf (v : Value) : Decides (recordOf v) (IsEntry v) (BadEntry v) := by
  refine .of_sound ?_ ?_ ?_
  · rintro _ ⟨htime⟩
    rw [recordOf, (decides_timeOf _).ok_iff.2 htime]
    rfl
  · intro e h
    cases h with
    | shape harray =>
      cases v with
      | array items => exact absurd rfl harray
      | _ => rfl
    | length hpair => exact recordOf_of_length_ne hpair
    | time htime =>
      rw [recordOf, (decides_timeOf _).error_iff.2 htime]
      rfl
    | fields htime hfields =>
      rw [recordOf, (decides_timeOf _).ok_iff.2 htime, (decides_fieldsOf _).error_iff.2 hfields]
      rfl
  · cases v with
    | array items =>
      by_cases hpair : items.length = 2
      · obtain ⟨time, fields, rfl⟩ := List.length_eq_two.1 hpair
        rcases (decides_timeOf time).total with ⟨t, htime⟩ | ⟨e, htime⟩
        · rcases (decides_fieldsOf (some fields)).total with ⟨fs, hfields⟩ | ⟨e, hfields⟩
          · obtain rfl := Option.some.inj hfields
            exact .inl ⟨_, .pair htime⟩
          · exact .inr ⟨e, .fields htime hfields⟩
        · exact .inr ⟨e, .time htime⟩
      · exact .inr ⟨_, .length hpair⟩
    | _ => exact .inr ⟨_, .shape (by simp)⟩

/-! ### Lists of entries -/

/-- Entries at the front of a list give their records. -/
private theorem recordsOf_append (h : List.Forall₂ IsEntry entries records) (acc : List Record)
    (rest : List Value) :
    recordsOf acc (entries ++ rest) = recordsOf (records.reverse ++ acc) rest := by
  induction h generalizing acc with
  | nil => rfl
  | cons hentry _ ih =>
    rw [List.cons_append, recordsOf, (decides_recordOf _).ok_iff.2 hentry]
    simp only [ih, List.reverse_cons, List.append_assoc, List.singleton_append]

/-- **The first value that is no entry.**  The values of a list are all entries, or there is a first
one that is none. -/
private theorem entries_cases (entries : List Value) :
    (∃ records, List.Forall₂ IsEntry entries records) ∨
      ∃ before entry after records e, entries = before ++ entry :: after ∧
        List.Forall₂ IsEntry before records ∧ BadEntry entry e := by
  induction entries with
  | nil => exact .inl ⟨[], .nil⟩
  | cons first rest ih =>
    rcases (decides_recordOf first).total with ⟨record, hfirst⟩ | ⟨e, hfirst⟩
    · refine ih.imp ?_ ?_
      · rintro ⟨records, hrest⟩
        exact ⟨record :: records, .cons hfirst hrest⟩
      · rintro ⟨before, entry, after, records, e, rfl, hbefore, hentry⟩
        exact ⟨first :: before, entry, after, record :: records, e, rfl, .cons hfirst hbefore,
          hentry⟩
    · exact .inr ⟨[], first, rest, [], e, rfl, .nil, hfirst⟩

/-- **The reader of a row of entries** takes all of them or refuses the first bad one. -/
theorem decides_recordsOf (entries : List Value) :
    Decides (recordsOf [] entries) (List.Forall₂ IsEntry entries) fun e =>
      ∃ before entry after records, entries = before ++ entry :: after ∧
        List.Forall₂ IsEntry before records ∧ BadEntry entry e := by
  refine .of_sound ?_ ?_ ?_
  · intro records h
    have hall := recordsOf_append h [] []
    rwa [List.append_nil, List.append_nil, recordsOf, List.reverse_reverse] at hall
  · rintro e ⟨before, entry, after, records, rfl, hbefore, hentry⟩
    rw [recordsOf_append hbefore, recordsOf, (decides_recordOf entry).error_iff.2 hentry]
  · refine (entries_cases entries).imp id ?_
    rintro ⟨before, entry, after, records, e, hentries⟩
    exact ⟨e, before, entry, after, records, hentries⟩

end Message

end ForwardIntake
