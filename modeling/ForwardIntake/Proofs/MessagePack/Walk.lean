import ForwardIntake.MessagePack.Reader
import ForwardIntake.Proofs.Frame.Items
import ForwardIntake.Proofs.Wire.Reading

/-!
# Reading MessagePack and walking over it

A walk over items keeps one number of items that are owed, where the reader enters one container
inside the other.  A value that is read pays for one of them and a container trades one for as many
as it holds (`Trades`), so the walk comes to the end of the value with the number it had before.
Where the reader misses bytes the walk does not find an end either (`Stalls`).  Both together say
that the walk keeps up with the reader (`tracked_value`).
-/

namespace ForwardIntake

namespace MessagePack

open ForwardIntake.Frame ForwardIntake.Frame.ItemWalk

/-! ### Heads and items -/

namespace Head

/-- The number of bytes that follow a head as its payload. -/
def payload : Head → Nat
  | .text length => length
  | .binary length => length
  | _ => 0

/-- The number of items that follow a head, two for each field of a map. -/
def items : Head → Nat
  | .array count => count
  | .map count => 2 * count
  | _ => 0

end Head

/-- The word behind a marker is taken off the front of the bytes. -/
private theorem word_eq_done {width : Nat} {make : Nat → Head} {b rest : Bytes} {h : Head}
    (done : word width make b = .done h rest) :
    ∃ digits, b = digits ++ rest ∧ digits.length = width ∧ h = make (Bytes.toNat digits) := by
  rw [word] at done
  split at done
  · rename_i digits after hsplit
    cases done
    obtain ⟨hb, hlen⟩ := Bytes.append_of_split? hsplit
    exact ⟨digits, hb, hlen, rfl⟩
  · cases done

/-- A word is missing where there are fewer bytes than it has. -/
private theorem word_eq_incomplete {width : Nat} {make : Nat → Head} {b : Bytes}
    (h : word width make b = .incomplete) : b.length < width := by
  rw [word] at h
  split at h
  · cases h
  · exact Bytes.split?_eq_none_iff.1 ‹_›

/-- How the reader and the walk take an item with a given marker. -/
inductive Agreement (marker : UInt8) : Prop where
  /-- The marker is the whole head. -/
  | marker (h : Head) (read : ∀ rest, head (marker :: rest) = .done h rest)
    (walk : form marker.toNat = .fixed h.payload ∧ h.items = 0 ∨
      form marker.toNat = .container h.items ∧ h.payload = 0)
  /-- The head goes on with a word that is a value. -/
  | word (width : Nat) (make : Nat → Head)
    (read : ∀ rest, head (marker :: rest) = word width make rest)
    (walk : form marker.toNat = .fixed width)
    (scalar : ∀ n, (make n).payload = 0 ∧ (make n).items = 0)
  /-- The head goes on with a word that is a length. -/
  | sized (width : Nat) (make : Nat → Head) (measure : Measure)
    (read : ∀ rest, head (marker :: rest) = MessagePack.word width make rest)
    (walk : form marker.toNat = .sized width 0 measure)
    (counts : ∀ header n, measure.item header n = .known (header + (make n).payload) (make n).items)
  /-- The head goes on with the length of an extension, and the walk also wants its type. -/
  | extension (width : Nat)
    (read : ∀ rest, head (marker :: rest) = MessagePack.word width (fun _ => .extension) rest)
    (walk : form marker.toNat = .sized width 1 .bytes)
  /-- The marker is the whole head of an extension of a fixed size. -/
  | fixedExtension (read : ∀ rest, head (marker :: rest) = .done .extension rest)
  | reserved (read : ∀ rest, head (marker :: rest) = .failed .reservedMarker)

/-- The markers of negative integers have nothing behind them. -/
theorem form_of_ge {marker : Nat} (h : 0xE0 ≤ marker) : form marker = .fixed 0 := by
  unfold form
  repeat' split
  all_goals first | (exfalso; omega) | rfl

/-- Reader and walk take every marker in the same way. -/
theorem agreement (marker : UInt8) : Agreement marker := by
  by_cases h₁ : marker.toNat < 0x80
  · exact .marker (.integer marker.toNat) (fun rest => by simp only [head, if_pos h₁])
      (.inl ⟨by simp only [form, if_pos h₁]; rfl, rfl⟩)
  by_cases h₂ : marker.toNat < 0x90
  · exact .marker (.map (marker.toNat - 0x80))
      (fun rest => by simp only [head, if_neg h₁, if_pos h₂])
      (.inr ⟨by simp only [form, if_neg h₁, if_pos h₂]; rfl, rfl⟩)
  by_cases h₃ : marker.toNat < 0xA0
  · exact .marker (.array (marker.toNat - 0x90))
      (fun rest => by simp only [head, if_neg h₁, if_neg h₂, if_pos h₃])
      (.inr ⟨by simp only [form, if_neg h₁, if_neg h₂, if_pos h₃]; rfl, rfl⟩)
  by_cases h₄ : marker.toNat < 0xC0
  · exact .marker (.text (marker.toNat - 0xA0))
      (fun rest => by simp only [head, if_neg h₁, if_neg h₂, if_neg h₃, if_pos h₄])
      (.inl ⟨by simp only [form, if_neg h₁, if_neg h₂, if_neg h₃, if_pos h₄]; rfl, rfl⟩)
  by_cases h₅ : 0xE0 ≤ marker.toNat
  · exact .marker (.integer (signed 0x80 marker.toNat))
      (fun rest => by simp only [head, if_neg h₁, if_neg h₂, if_neg h₃, if_neg h₄, if_pos h₅])
      (.inl ⟨form_of_ge h₅, rfl⟩)
  -- the markers from `0xC0` to `0xDF` are taken one by one
  have heq : marker = UInt8.ofNat marker.toNat := by simp
  generalize marker.toNat = m at h₁ h₂ h₃ h₄ h₅ heq
  subst heq
  have hlow : 0xC0 ≤ m := Nat.le_of_not_lt h₄
  have hhigh : m < 0xE0 := Nat.lt_of_not_le h₅
  clear h₁ h₂ h₃ h₄ h₅
  interval_cases m
  all_goals first
    | exact .marker _ (fun _ => rfl) (.inl ⟨rfl, rfl⟩)
    | exact .word _ (fun n => .integer n) (fun _ => rfl) rfl fun _ => ⟨rfl, rfl⟩
    | exact .word _ (fun n => .integer (signed _ n)) (fun _ => rfl) rfl fun _ => ⟨rfl, rfl⟩
    | exact .word _ (fun n => .float ⟨UInt64.ofNat n⟩) (fun _ => rfl) rfl fun _ => ⟨rfl, rfl⟩
    | exact .word _ (fun n => .float (.ofBinary32 n)) (fun _ => rfl) rfl fun _ => ⟨rfl, rfl⟩
    | exact .sized _ _ _ (fun _ => rfl) rfl fun _ _ => rfl
    | exact .extension _ (fun _ => rfl) rfl
    | exact .fixedExtension fun _ => rfl
    | exact .reserved fun _ => rfl

/-- **A head that is read is a known item**, except for that of an extension, which the reader
refuses. -/
private theorem item_of_head {marker : UInt8} {rest after : Bytes} {h : Head}
    (done : head (marker :: rest) = .done h after) (hext : h ≠ .extension) :
    ∃ front, rest = front ++ after ∧
      item marker rest = .known (front.length + h.payload) h.items := by
  cases agreement marker with
  | marker h' read walk =>
    rw [read] at done
    cases done
    refine ⟨[], rfl, ?_⟩
    rcases walk with ⟨walk, hitems⟩ | ⟨walk, hpayload⟩
    · simp only [item, walk, hitems, List.length_nil, Nat.zero_add]
    · simp only [item, walk, hpayload, List.length_nil]
  | word width make read walk scalar =>
    rw [read] at done
    obtain ⟨digits, hrest, hlen, rfl⟩ := word_eq_done done
    refine ⟨digits, hrest, ?_⟩
    simp only [item, walk, scalar, hlen, Nat.add_zero]
  | sized width make measure read walk counts =>
    rw [read] at done
    obtain ⟨digits, rfl, rfl, rfl⟩ := word_eq_done done
    refine ⟨digits, rfl, ?_⟩
    rw [item_of_split? walk (Bytes.split?_append digits after), counts, List.take_length,
      Nat.add_zero]
  | extension width read walk =>
    rw [read] at done
    obtain ⟨digits, -, -, rfl⟩ := word_eq_done done
    exact absurd rfl hext
  | fixedExtension read =>
    rw [read] at done
    cases done
    exact absurd rfl hext
  | reserved read =>
    rw [read] at done
    cases done

/-- Where a head is cut off the walk misses bytes as well: of the header, or of the item. -/
private theorem item_of_head_eq_incomplete {marker : UInt8} {rest : Bytes}
    (h : head (marker :: rest) = .incomplete) :
    (∃ length, item marker rest = .header length) ∨
      ∃ bytes, item marker rest = .known bytes 0 ∧ rest.length < bytes := by
  cases agreement marker with
  | marker h' read walk =>
    rw [read] at h
    cases h
  | word width make read walk scalar =>
    rw [read] at h
    exact .inr ⟨width, by simp only [item, walk], word_eq_incomplete h⟩
  | sized width make measure read walk counts =>
    rw [read] at h
    exact .inl ⟨_, item_of_split?_eq_none walk (Bytes.split?_eq_none_iff.2 (word_eq_incomplete h))⟩
  | extension width read walk =>
    rw [read] at h
    have hlt := word_eq_incomplete h
    exact .inl ⟨_, item_of_split?_eq_none walk (Bytes.split?_eq_none_iff.2 (by omega))⟩
  | fixedExtension read =>
    rw [read] at h
    cases h
  | reserved read =>
    rw [read] at h
    cases h

/-! ### Trades -/

/-- Over `front`, with `rest` behind it, an exact walk trades `owed` of its items for others. -/
def Trades (owed others : Nat) (front rest : Bytes) : Prop :=
  ∀ size pos n, exact size pos (owed + n) (front ++ rest) =
    exact size (pos + front.length) (others + n) rest

/-- With `owed` items to go an exact walk does not find its end in the bytes at hand. -/
def Stalls (owed : Nat) (b : Bytes) : Prop :=
  ∀ size pos n, Placed size pos b → ∃ needed, exact size pos (owed + n) b = .incomplete needed

/-- Over no bytes nothing is traded. -/
theorem Trades.refl (owed : Nat) (rest : Bytes) : Trades owed owed [] rest :=
  fun _ _ _ => rfl

/-- What was traded may be traded again behind it. -/
theorem Trades.trans {owed others final : Nat} {front mid rest : Bytes}
    (h₁ : Trades owed others front (mid ++ rest)) (h₂ : Trades others final mid rest) :
    Trades owed final (front ++ mid) rest := by
  intro size pos n
  rw [List.append_assoc, h₁, h₂, List.length_append, Nat.add_assoc]

/-- Items that are owed besides stay owed. -/
private theorem Trades.add_right {owed others : Nat} {front rest : Bytes}
    (h : Trades owed others front rest) (more : Nat) :
    Trades (owed + more) (others + more) front rest := by
  intro size pos n
  rw [Nat.add_assoc, h, Nat.add_assoc]

/-- Items paid for leave the others. -/
theorem Trades.paid {owed : Nat} {front rest : Bytes} (h : Trades owed 0 front rest)
    (others : Nat) : Trades (owed + others) others front rest := by
  have := h.add_right others
  rwa [Nat.zero_add] at this

/-- With more items to go the walk does not find its end either. -/
private theorem Stalls.add_right {owed : Nat} {b : Bytes} (h : Stalls owed b) (more : Nat) :
    Stalls (owed + more) b := by
  intro size pos n placed
  rw [Nat.add_assoc]
  exact h size pos (more + n) placed

/-- A walk that stalls behind a trade stalls before it. -/
private theorem Stalls.of_trades {owed others : Nat} {front rest : Bytes}
    (h₁ : Trades owed others front rest) (h₂ : Stalls others rest) :
    Stalls owed (front ++ rest) := by
  intro size pos n placed
  rw [h₁]
  refine h₂ _ _ _ ?_
  rcases placed with hsize | ⟨hnil, hle⟩
  · rw [List.length_append] at hsize
    exact .inl (by omega)
  · exact .inr ⟨(List.append_eq_nil_iff.1 hnil).2, by omega⟩

/-- Beyond the end of the buffer a walk does not find its end. -/
private theorem exact_beyond {size pos : Nat} (h : size < pos) (n : Nat) :
    ∃ needed, exact size pos n [] = .incomplete needed := by
  cases n with
  | zero => exact ⟨pos, by rw [exact_zero, if_pos h]⟩
  | succ n => exact ⟨pos + 1, exact_nil size pos n⟩

/-- An item that takes more bytes than there are leads beyond the end of the buffer. -/
private theorem stalls_of_known {marker : UInt8} {rest : Bytes} {bytes items : Nat}
    (hitem : item marker rest = .known bytes items) (hlt : rest.length < bytes) :
    Stalls 1 (marker :: rest) := by
  intro size pos n placed
  have := placed.size_eq
  rw [Nat.add_comm, exact_of_known hitem, List.drop_eq_nil_of_le (Nat.le_of_lt hlt)]
  exact exact_beyond (by omega) _

/-- Where a head is cut off the walk stalls. -/
private theorem stalls_of_head {b : Bytes} (h : head b = .incomplete) : Stalls 1 b := by
  cases b with
  | nil => exact fun size pos n _ => ⟨pos + 1, by rw [Nat.add_comm, exact_nil]⟩
  | cons marker rest =>
    rcases item_of_head_eq_incomplete h with ⟨length, hitem⟩ | ⟨bytes, hitem, hlt⟩
    · exact fun size pos n _ => ⟨pos + length, by rw [Nat.add_comm, exact_cons, hitem]⟩
    · exact stalls_of_known hitem hlt

/-- A head with its payload is traded for the items that it announces. -/
private theorem trades_of_head {b content rest : Bytes} {h : Head}
    (done : head b = .done h (content ++ rest)) (hext : h ≠ .extension)
    (hlen : content.length = h.payload) :
    ∃ front, b = front ++ rest ∧ Trades 1 h.items front rest := by
  cases b with
  | nil => cases done
  | cons marker tail =>
    obtain ⟨digits, rfl, hitem⟩ := item_of_head done hext
    refine ⟨marker :: (digits ++ content), by simp, fun size pos n => ?_⟩
    have hdrop : (digits ++ (content ++ rest)).drop (digits.length + h.payload) = rest := by
      rw [← List.append_assoc, ← hlen, ← List.length_append, List.drop_left]
    rw [List.cons_append, List.append_assoc, Nat.add_comm 1 n, exact_of_known hitem, hdrop,
      List.length_cons, List.length_append, hlen, Nat.add_comm n, Nat.add_comm 1]

/-- A head without a payload is traded for the items that it announces. -/
private theorem trades_of_bare_head {b rest : Bytes} {h : Head} (done : head b = .done h rest)
    (hext : h ≠ .extension) (hbare : h.payload = 0) :
    ∃ front, b = front ++ rest ∧ Trades 1 h.items front rest :=
  trades_of_head (by rwa [List.nil_append]) hext (by rw [hbare]; exact List.length_nil)

/-- A head whose payload is cut off. -/
private theorem stalls_of_payload {b after : Bytes} {h : Head} (done : head b = .done h after)
    (hext : h ≠ .extension) (hlt : after.length < h.payload) : Stalls 1 b := by
  cases b with
  | nil => cases done
  | cons marker tail =>
    obtain ⟨digits, rfl, hitem⟩ := item_of_head done hext
    exact stalls_of_known hitem (by rw [List.length_append]; omega)

/-! ### Values -/

variable {α β : Type}

/-- The walk keeps up with a way of reading `owed` items: it pays for them where they are read, and
it misses bytes where they are missed. -/
structure Tracked (read : Bytes → Reading Error α) (owed : Nat) : Prop where
  done : ∀ {b rest : Bytes} {a : α}, read b = .done a rest →
    ∃ front, b = front ++ rest ∧ Trades owed 0 front rest
  incomplete : ∀ {b : Bytes}, read b = .incomplete → Stalls owed b

/-- Nothing is read and nothing was owed. -/
private theorem Tracked.pure (a : α) : Tracked (fun b => .done a b) 0 := by
  refine ⟨fun done => ?_, nofun⟩
  cases done
  exact ⟨[], rfl, .refl 0 _⟩

/-- The items of two readings are owed one after the other. -/
private theorem Tracked.bind {read : Bytes → Reading Error α} {next : α → Bytes → Reading Error β}
    {owed others : Nat} (hread : Tracked read owed) (hnext : ∀ a, Tracked (next a) others) :
    Tracked (fun b => (read b).bind next) (owed + others) := by
  constructor
  · intro b rest result done
    obtain ⟨a, mid, hfirst, hsecond⟩ := Reading.bind_eq_done_iff.1 done
    obtain ⟨front, rfl, hfront⟩ := hread.done hfirst
    obtain ⟨inside, rfl, hinside⟩ := (hnext a).done hsecond
    exact ⟨front ++ inside, (List.append_assoc ..).symm, (hfront.paid others).trans hinside⟩
  · intro b cut
    rcases Reading.bind_eq_incomplete_iff.1 cut with hfirst | ⟨a, mid, hfirst, hsecond⟩
    · exact (hread.incomplete hfirst).add_right others
    · obtain ⟨front, rfl, hfront⟩ := hread.done hfirst
      exact .of_trades (hfront.paid others) ((hnext a).incomplete hsecond)

/-- A payload is taken off the front of the bytes. -/
private theorem payload_eq_done {length : Nat} {make : Bytes → α} {b rest : Bytes} {a : α}
    (done : payload length make b = .done a rest) :
    ∃ content, b = content ++ rest ∧ content.length = length := by
  rw [payload] at done
  split at done
  · rename_i content after hsplit
    cases done
    exact ⟨content, Bytes.append_of_split? hsplit⟩
  · cases done

/-- A payload is missing where there are fewer bytes than it has. -/
private theorem payload_eq_incomplete {length : Nat} {make : Bytes → α} {b : Bytes}
    (h : payload length make b = .incomplete) : b.length < length := by
  rw [payload] at h
  split at h
  · cases h
  · exact Bytes.split?_eq_none_iff.1 ‹_›

/-- One item is read and then the others. -/
theorem items_succ (item : Bytes → Reading Error Value) (n : Nat) (acc : List Value) :
    items item (n + 1) acc = fun b => (item b).bind fun v => items item n (v :: acc) := by
  funext b
  rw [items]
  cases item b <;> rfl

/-- One field is read and then the others. -/
theorem fields_succ (key : Bytes → Reading Error String) (item : Bytes → Reading Error Value)
    (n : Nat) (acc : Fields) :
    fields key item (n + 1) acc = fun b =>
      (key b).bind fun k mid => (item mid).bind fun v => fields key item n (acc.insert k v) := by
  funext b
  rw [fields]
  cases key b with
  | done k mid =>
    simp only [Reading.bind_done]
    cases item mid <;> rfl
  | incomplete => rfl
  | failed error => rfl

/-- As many items are owed as are read. -/
private theorem tracked_items {item : Bytes → Reading Error Value} (hitem : Tracked item 1)
    (n : Nat) (acc : List Value) : Tracked (items item n acc) n := by
  induction n generalizing acc with
  | zero => exact .pure acc.reverse
  | succ n ih =>
    rw [items_succ, Nat.add_comm]
    exact hitem.bind fun v => ih (v :: acc)

private theorem tracked_key (room : Nat) : Tracked (key room) 1 := by
  constructor
  · intro b rest k done
    rw [key, Reading.bind_eq_done_iff] at done
    obtain ⟨h, mid, hhead, done⟩ := done
    cases h with
    | text length =>
      obtain ⟨content, rfl, hlen⟩ := payload_eq_done done
      exact trades_of_head hhead (by simp) hlen
    | binary length =>
      obtain ⟨content, rfl, hlen⟩ := payload_eq_done done
      exact trades_of_head hhead (by simp) hlen
    | _ => cases done
  · intro b hkey
    rw [key, Reading.bind_eq_incomplete_iff] at hkey
    rcases hkey with hhead | ⟨h, mid, hhead, hkey⟩
    · exact stalls_of_head hhead
    · cases h with
      | text length => exact stalls_of_payload hhead (by simp) (payload_eq_incomplete hkey)
      | binary length => exact stalls_of_payload hhead (by simp) (payload_eq_incomplete hkey)
      | _ => cases hkey

/-- A field is two items. -/
private theorem tracked_fields {key : Bytes → Reading Error String}
    {item : Bytes → Reading Error Value}
    (hkey : Tracked key 1) (hitem : Tracked item 1) (n : Nat) (acc : Fields) :
    Tracked (fields key item n acc) (2 * n) := by
  induction n generalizing acc with
  | zero => exact .pure acc
  | succ n ih =>
    -- a field owes two items, its key and its value
    have hsplit : 2 * (n + 1) = 1 + (1 + 2 * n) := by omega
    rw [fields_succ, hsplit]
    exact hkey.bind fun k => hitem.bind fun v => ih (acc.insert k v)

/-- A container is traded for its members and these are paid for. -/
private theorem trades_of_members {b after rest : Bytes} {h : Head}
    {members : Bytes → Reading Error α}
    {a : α} (hhead : head b = .done h after) (hext : h ≠ .extension) (hpayload : h.payload = 0)
    (hmembers : Tracked members h.items) (done : members after = .done a rest) :
    ∃ front, b = front ++ rest ∧ Trades 1 0 front rest := by
  obtain ⟨inside, rfl, hinside⟩ := hmembers.done done
  obtain ⟨outside, rfl, houtside⟩ := trades_of_bare_head hhead hext hpayload
  exact ⟨outside ++ inside, (List.append_assoc ..).symm, houtside.trans hinside⟩

/-- A container whose members are cut off. -/
private theorem stalls_of_members {b after : Bytes} {h : Head} {members : Bytes → Reading Error α}
    (hhead : head b = .done h after) (hext : h ≠ .extension) (hpayload : h.payload = 0)
    (hmembers : Tracked members h.items) (cut : members after = .incomplete) : Stalls 1 b := by
  obtain ⟨outside, rfl, houtside⟩ := trades_of_bare_head hhead hext hpayload
  exact .of_trades houtside (hmembers.incomplete cut)

/-- A value is one item, if the values inside of it are. -/
private theorem tracked_value_of_inner {room : Nat}
    (inner : ∀ deeper, room = deeper + 1 → Tracked (value deeper) 1) : Tracked (value room) 1 := by
  constructor
  · intro b rest v done
    rw [value.eq_def] at done
    cases hhead : head b with
    | incomplete => rw [hhead] at done; cases done
    | failed error => rw [hhead] at done; cases done
    | done h after =>
      rw [hhead] at done
      cases h with
      | nil => cases done; exact trades_of_bare_head hhead (by simp) rfl
      | bool b => cases done; exact trades_of_bare_head hhead (by simp) rfl
      | integer n => cases done; exact trades_of_bare_head hhead (by simp) rfl
      | float x => cases done; exact trades_of_bare_head hhead (by simp) rfl
      | text length =>
        obtain ⟨content, rfl, hlen⟩ := payload_eq_done done
        exact trades_of_head hhead (by simp) hlen
      | binary length =>
        obtain ⟨content, rfl, hlen⟩ := payload_eq_done done
        exact trades_of_head hhead (by simp) hlen
      | array count =>
        cases room with
        | zero => cases done
        | succ deeper =>
          obtain ⟨_, hmembers, -⟩ := Reading.map_eq_done_iff.1 done
          exact trades_of_members hhead (by simp) rfl (tracked_items (inner _ rfl) count [])
            hmembers
      | map count =>
        cases room with
        | zero => cases done
        | succ deeper =>
          obtain ⟨_, hmembers, -⟩ := Reading.map_eq_done_iff.1 done
          exact trades_of_members hhead (by simp) rfl
            (tracked_fields (tracked_key deeper) (inner _ rfl) count []) hmembers
      | extension => cases done
  · intro b cut
    rw [value.eq_def] at cut
    cases hhead : head b with
    | incomplete => exact stalls_of_head hhead
    | failed error => rw [hhead] at cut; cases cut
    | done h after =>
      rw [hhead] at cut
      cases h with
      | text length => exact stalls_of_payload hhead (by simp) (payload_eq_incomplete cut)
      | binary length => exact stalls_of_payload hhead (by simp) (payload_eq_incomplete cut)
      | array count =>
        cases room with
        | zero => cases cut
        | succ deeper =>
          exact stalls_of_members hhead (by simp) rfl (tracked_items (inner _ rfl) count [])
            (Reading.map_eq_incomplete_iff.1 cut)
      | map count =>
        cases room with
        | zero => cases cut
        | succ deeper =>
          exact stalls_of_members hhead (by simp) rfl
            (tracked_fields (tracked_key deeper) (inner _ rfl) count [])
            (Reading.map_eq_incomplete_iff.1 cut)
      | _ => cases cut

/-- **The walk keeps up with the reader of values**, whatever may lie inside them. -/
theorem tracked_value (room : Nat) : Tracked (value room) 1 := by
  induction room with
  | zero => exact tracked_value_of_inner fun _ h => absurd h (Nat.succ_ne_zero _).symm
  | succ room ih => exact tracked_value_of_inner fun _ h => Nat.succ.inj h ▸ ih

end MessagePack

end ForwardIntake
