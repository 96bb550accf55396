import ForwardIntake.Proofs.Message.Framing
import ForwardIntake.Proofs.MessagePack.Format

/-!
# The walk and the format

The walk over MessagePack keeps one number, of the items that it still owes, in the place of all the
containers that are open.  That is enough.  What the format has for the opening of an item is what
the walk takes for it (`item_of_opens`, `opens_of_item`), so an item pays for one of those that are
owed (`trades_of_isItem`); and where the walk has paid for all of them, it has come over just as
many items (`exists_items`).

Hence the scanner finds the end of the first item of a buffer, or the unused marker where an item
has to begin, and otherwise it waits for more bytes (`frameOf_follows_format`).  This is said of all
items, also of those that the decoder refuses.
-/

namespace ForwardIntake

namespace MessagePack

open ForwardIntake.Frame ForwardIntake.Frame.ItemWalk

variable {b rest tail front : Bytes} {marker : UInt8}

/-! ### Markers -/

/-- The type of an extension stands in the header that the walk wants to see. -/
private theorem item_extension (width n : Nat) :
    Measure.bytes.item (width + 1) n = .known (width + (1 + n)) 0 := by
  rw [Measure.item, Nat.add_assoc]

/-- A marker without a length tells the walk how many bytes or how many items follow. -/
private theorem form_of_bare {m bytes items : Nat} (h : Bare m bytes items) :
    m < 0x100 ∧ (form m = .fixed bytes ∧ items = 0 ∨ form m = .container items ∧ bytes = 0) := by
  cases h with
  | positive hn => exact ⟨by omega, .inl ⟨if_pos hn, rfl⟩⟩
  | map hn | array hn =>
    refine ⟨by omega, .inr ⟨?_, rfl⟩⟩
    simp only [form]
    grind
  | text hn =>
    refine ⟨by omega, .inl ⟨?_, rfl⟩⟩
    simp only [form]
    grind
  | nil => exact ⟨by decide, .inl ⟨rfl, rfl⟩⟩
  | @boolean k hk | @float k hk | @unsigned k hk | @signed k hk | @extension k hk =>
    interval_cases k
    all_goals exact ⟨by decide, .inl ⟨rfl, rfl⟩⟩
  | negative hn => exact ⟨by omega, .inl ⟨form_of_ge (by omega), rfl⟩⟩

/-- A marker with a length has the walk read it. -/
private theorem form_of_sized {m width n bytes items : Nat} (h : Sized m width n bytes items) :
    m < 0x100 ∧ ∃ extra measure, form m = .sized width extra measure ∧ extra ≤ bytes ∧
      measure.item (width + extra) n = .known (width + bytes) items := by
  cases h with
  | @binary k n hk | @text k n hk =>
    interval_cases k
    all_goals exact ⟨by decide, 0, .bytes, rfl, Nat.zero_le _, rfl⟩
  | @extension k n hk =>
    interval_cases k
    all_goals exact ⟨by decide, 1, .bytes, rfl, Nat.le_add_right 1 n, item_extension ..⟩
  | @array k n hk =>
    interval_cases k
    all_goals exact ⟨by decide, 0, .items, rfl, Nat.zero_le _, rfl⟩
  | @map k n hk =>
    interval_cases k
    all_goals exact ⟨by decide, 0, .pairs, rfl, Nat.zero_le _, rfl⟩

/-- What the format has for a marker of a given form. -/
def HasForm (m : Nat) : Form → Prop
  | .fixed bytes => Bare m bytes 0
  | .container items => Bare m 0 items
  | .sized width extra measure => ∀ n, ∃ bytes items,
      Sized m width n bytes items ∧ measure.item (width + extra) n = .known (width + bytes) items
  | .reserved => m = unused.toNat

/-- Every marker is one of the format, unless it is the unused one. -/
private theorem hasForm {m : Nat} (hm : m < 0x100) : HasForm m (form m) := by
  by_cases h₁ : m < 0x80
  · simp only [form, if_pos h₁]
    exact .positive h₁
  by_cases h₂ : m < 0x90
  · obtain ⟨n, rfl⟩ := Nat.exists_eq_add_of_le' (Nat.le_of_not_lt h₁)
    simp only [form, if_neg h₁, if_pos h₂, Nat.add_sub_cancel]
    exact .map (by omega)
  by_cases h₃ : m < 0xA0
  · obtain ⟨n, rfl⟩ := Nat.exists_eq_add_of_le' (Nat.le_of_not_lt h₂)
    simp only [form, if_neg h₁, if_neg h₂, if_pos h₃, Nat.add_sub_cancel]
    exact .array (by omega)
  by_cases h₄ : m < 0xC0
  · obtain ⟨n, rfl⟩ := Nat.exists_eq_add_of_le' (Nat.le_of_not_lt h₃)
    simp only [form, if_neg h₁, if_neg h₂, if_neg h₃, if_pos h₄, Nat.add_sub_cancel]
    exact .text (by omega)
  by_cases h₅ : 0xE0 ≤ m
  · obtain ⟨n, rfl⟩ := Nat.exists_eq_add_of_le' h₅
    rw [form_of_ge h₅]
    exact .negative (by omega)
  -- the markers from `0xC0` to `0xDF` are taken one by one
  have hlow : 0xC0 ≤ m := Nat.le_of_not_lt h₄
  have hhigh : m < 0xE0 := Nat.lt_of_not_le h₅
  clear h₁ h₂ h₃ h₄ h₅
  interval_cases m
  all_goals first
    | exact Bare.nil
    | exact Bare.boolean (by decide)
    | exact Bare.float (by decide)
    | exact Bare.unsigned (by decide)
    | exact Bare.signed (by decide)
    | exact Bare.extension (by decide)
    | exact fun n => ⟨_, _, .binary (by decide), rfl⟩
    | exact fun n => ⟨_, _, .text (by decide), rfl⟩
    | exact fun n => ⟨_, _, .extension (by decide), item_extension ..⟩
    | exact fun n => ⟨_, _, .array (by decide), rfl⟩
    | exact fun n => ⟨_, _, .map (by decide), rfl⟩
    | exact (rfl : _ = unused.toNat)

/-! ### Items -/

/-- What the format has for the opening of an item is what the walk takes for it. -/
private theorem item_of_opens {opening : Bytes} {items : Nat} (h : Opens opening items) :
    ∃ marker tail, opening = marker :: tail ∧
      ∀ rest, item marker (tail ++ rest) = .known tail.length items := by
  cases h with
  | @bare m _ payload hmarker =>
    obtain ⟨hm, hform⟩ := form_of_bare hmarker
    refine ⟨_, _, rfl, fun rest => ?_⟩
    rcases hform with ⟨hform, hitems⟩ | ⟨hform, hpayload⟩
    · simp only [item, UInt8.toNat_ofNat_of_lt' hm, hform, hitems]
    · simp only [item, UInt8.toNat_ofNat_of_lt' hm, hform, hpayload]
  | @sized m _ length payload hmarker =>
    obtain ⟨hm, extra, measure, hform, hextra, hitem⟩ := form_of_sized hmarker
    refine ⟨_, _, rfl, fun rest => ?_⟩
    -- the walk counts the type of an extension among the bytes of its header
    have hsplit : Bytes.split? (length.length + extra) (length ++ payload ++ rest) =
        some (length ++ payload.take extra, payload.drop extra ++ rest) := by
      have hheader : (length ++ payload.take extra).length = length.length + extra := by
        rw [List.length_append, List.length_take, Nat.min_eq_left hextra]
      have hparts : length ++ payload ++ rest =
          length ++ payload.take extra ++ (payload.drop extra ++ rest) := by
        rw [List.append_assoc length, List.append_assoc length,
          ← List.append_assoc (payload.take extra), List.take_append_drop]
      rw [hparts, ← hheader, Bytes.split?_append]
    have hm' : (UInt8.ofNat m).toNat = m := UInt8.toNat_ofNat_of_lt' hm
    rw [item_of_split? (by rw [hm', hform]) hsplit, List.take_left, hitem, List.length_append]

/-- What the walk takes for the opening of an item is one by the format. -/
private theorem opens_of_item {marker : UInt8} {tail : Bytes} {bytes items : Nat}
    (h : item marker tail = .known bytes items) (hbytes : bytes ≤ tail.length) :
    Opens (marker :: tail.take bytes) items := by
  have hmarker : marker = .ofNat marker.toNat := by simp
  have hmark := hasForm marker.toNat_lt
  cases hform : form marker.toNat with
  | fixed n =>
    rw [hform] at hmark
    simp only [item, hform, Item.known.injEq] at h
    obtain ⟨rfl, rfl⟩ := h
    rw [hmarker]
    refine .bare ?_
    rw [List.length_take, Nat.min_eq_left hbytes]
    exact hmark
  | container n =>
    rw [hform] at hmark
    simp only [item, hform, Item.known.injEq] at h
    obtain ⟨rfl, rfl⟩ := h
    rw [hmarker]
    exact .bare hmark
  | reserved =>
    simp only [item, hform, reduceCtorEq] at h
  | sized width extra measure =>
    rw [hform] at hmark
    cases hsplit : Bytes.split? (width + extra) tail with
    | none =>
      rw [item_of_split?_eq_none hform hsplit] at h
      cases h
    | some found =>
      obtain ⟨header, after⟩ := found
      obtain ⟨payload, items', hsized, hitem⟩ := hmark (Bytes.toNat (header.take width))
      obtain ⟨rfl, hlength⟩ := Bytes.append_of_split? hsplit
      rw [item_of_split? hform hsplit, hitem, Item.known.injEq] at h
      obtain ⟨rfl, rfl⟩ := h
      have hwidth : (header ++ after).take width = header.take width :=
        List.take_append_of_le_length (by omega)
      rw [hmarker, List.take_add, hwidth]
      refine .sized ?_
      rw [List.length_take, List.length_take, List.length_drop, Nat.min_eq_left (by omega),
        Nat.min_eq_left (by omega)]
      exact hsized

/-- Where the walk refuses to go on stands the unused marker. -/
private theorem item_eq_reserved_iff {marker : UInt8} {tail : Bytes} :
    item marker tail = .reserved ↔ marker = unused := by
  constructor
  · intro h
    have hmark := hasForm marker.toNat_lt
    cases hform : form marker.toNat with
    | fixed n => simp only [item, hform, reduceCtorEq] at h
    | container n => simp only [item, hform, reduceCtorEq] at h
    | reserved =>
      rw [hform] at hmark
      exact UInt8.toNat_inj.1 hmark
    | sized width extra measure =>
      cases hsplit : Bytes.split? (width + extra) tail with
      | none =>
        rw [item_of_split?_eq_none hform hsplit] at h
        cases h
      | some found =>
        rw [item_of_split? hform hsplit] at h
        cases measure <;> cases h
  · rintro rfl
    rfl

/-! ### From the format to the walk -/

/-- An opening trades the item for those inside of it. -/
private theorem trades_of_opens {opening : Bytes} {items : Nat} (h : Opens opening items)
    (rest : Bytes) :
    Trades 1 items opening rest := by
  obtain ⟨marker, tail, rfl, hitem⟩ := item_of_opens h
  intro size pos n
  rw [List.cons_append, Nat.add_comm 1 n, exact_of_known (hitem rest), List.drop_left,
    List.length_cons, Nat.add_comm n, Nat.add_comm 1]

/-- A row of items trades for nothing if each item does. -/
private theorem trades_of_forall {items : List Bytes}
    (h : ∀ item ∈ items, ∀ rest, Trades 1 0 item rest) (rest : Bytes) :
    Trades items.length 0 items.flatten rest := by
  induction items with
  | nil => exact .refl 0 rest
  | cons first items ih =>
    obtain ⟨hfirst, hitems⟩ := List.forall_mem_cons.1 h
    rw [List.length_cons, Nat.add_comm, List.flatten_cons]
    exact ((hfirst _).paid items.length).trans (ih hitems)

/-- **An item pays for one of those that are owed.** -/
private theorem trades_of_isItem (h : IsItem b) (rest : Bytes) : Trades 1 0 b rest := by
  induction h generalizing rest with
  | mk opens _ ih => exact (trades_of_opens opens _).trans (trades_of_forall ih rest)

/-- Where an item has to begin the unused marker ends the walk. -/
private theorem exact_of_leadsIn (h : LeadsIn front) (size pos n : Nat) (rest : Bytes) :
    exact size pos (n + 1) (front ++ unused :: rest) = .invalid := by
  induction h generalizing pos n with
  | outermost =>
    rw [List.nil_append, exact_cons, item_eq_reserved_iff.2 rfl]
  | @inside opening front items count opens complete owed _ ih =>
    have hitems := trades_of_forall (fun item hmem => trades_of_isItem (complete item hmem))
      (front ++ unused :: rest)
    -- of the items that were announced at least one is still owed
    obtain ⟨more, rfl⟩ := Nat.exists_eq_add_of_lt owed
    have howed : items.length + more + 1 + n = items.length + (more + n + 1) := by omega
    rw [List.append_assoc, List.append_assoc, Nat.add_comm n 1, trades_of_opens opens, howed,
      hitems, Nat.zero_add]
    exact ih _ _

/-! ### From the walk to the format -/

/-- What the walk has come over when it has paid for all that it owed is as many items. -/
private theorem exists_items {size pos owed n : Nat} (placed : Placed size pos rest)
    (h : exact size pos owed rest = .complete n) :
    ∃ (items : List Bytes) (after : Bytes), items.length = owed ∧ (∀ item ∈ items, IsItem item) ∧
      rest = items.flatten ++ after ∧ n = pos + items.flatten.length := by
  fun_induction exact size pos owed rest with
  | case1 => cases h
  | case2 pos rest hle =>
    cases h
    exact ⟨[], rest, rfl, List.forall_mem_nil _, rfl, rfl⟩
  | case3 => cases h
  | case4 pos owed howed marker tail bytes count hitem ih =>
    obtain ⟨items, after, hlength, hitems, htail, hn⟩ := ih (placed.drop bytes) h
    have hsize := placed.size_eq
    have hle := le_of_exact_eq_complete h
    have hopens := opens_of_item hitem (by omega)
    obtain ⟨gathered, hcount, hgathered, hflatten⟩ := hopens.gather hitems (by omega)
    refine ⟨gathered, after, by omega, hgathered, ?_, ?_⟩
    · rw [hflatten, List.append_assoc, ← htail, List.cons_append, List.take_append_drop]
    · rw [hflatten, List.length_append, List.length_cons, List.length_take]
      omega
  | case5 => cases h
  | case6 => cases h

/-- Where the walk ends without a frame, the unused marker stands where an item has to begin. -/
private theorem exists_leadsIn {size pos owed : Nat} (placed : Placed size pos rest)
    (h : exact size pos owed rest = .invalid) :
    ∃ (items : List Bytes) (front after : Bytes), items.length < owed ∧
      (∀ item ∈ items, IsItem item) ∧ LeadsIn front ∧
      rest = items.flatten ++ (front ++ unused :: after) := by
  fun_induction exact size pos owed rest with
  | case1 => cases h
  | case2 => cases h
  | case3 => cases h
  | case4 pos owed howed marker tail bytes count hitem ih =>
    obtain ⟨items, front, after, hlength, hitems, hfront, htail⟩ := ih (placed.drop bytes) h
    have hbytes : bytes < tail.length := by
      have := congrArg List.length htail
      simp only [List.length_drop, List.length_append, List.length_cons] at this
      omega
    have hopens := opens_of_item hitem hbytes.le
    have hwhole : marker :: tail =
        (marker :: tail.take bytes) ++ (items.flatten ++ (front ++ unused :: after)) := by
      rw [← htail, List.cons_append, List.take_append_drop]
    -- the marker stands behind the items in what was opened, or among them
    rcases Nat.lt_or_ge items.length count with hinside | hbehind
    · refine ⟨[], _, after, Nat.pos_of_ne_zero howed, List.forall_mem_nil _,
        .inside hopens hitems hinside hfront, ?_⟩
      rw [hwhole]
      simp only [List.flatten_nil, List.nil_append, List.append_assoc]
    · obtain ⟨gathered, hcount, hgathered, hflatten⟩ := hopens.gather hitems hbehind
      refine ⟨gathered, front, after, by omega, hgathered, hfront, ?_⟩
      rw [hwhole, hflatten, List.append_assoc]
  | case5 => cases h
  | case6 pos owed howed marker tail hitem =>
    obtain rfl := item_eq_reserved_iff.1 hitem
    exact ⟨[], [], tail, Nat.pos_of_ne_zero howed, List.forall_mem_nil _, .outermost, rfl⟩

end MessagePack

namespace Scanner

open ForwardIntake.Frame MessagePack Message

variable {b : Bytes}

/-- At the beginning of a message the walk counts as if there were no greatest word. -/
private theorem frameOf_eq_exact {first : UInt8} {rest : Bytes} (small : b.length < 2 ^ 63)
    (hb : b = first :: rest) (start : Bytes.isSeparator first = false)
    (codec : Codec.sniff first = .messagePack) : frameOf b = ItemWalk.exact b.length 0 1 b := by
  have hbody : body b = b := by
    rw [hb, body, List.dropWhile_cons_of_neg (Bool.eq_false_iff.1 start)]
  have hseparators : (separators b).length = 0 := by
    rw [length_separators, hbody, Nat.sub_self]
  rw [frameOf_of_messagePack (hbody.trans hb) codec small, hseparators, hbody]

/-- The walk completes a frame if and only if its bytes are one item. -/
private theorem exact_eq_complete_iff {n : Nat} :
    ItemWalk.exact b.length 0 1 b = .complete n ↔ n ≤ b.length ∧ IsItem (b.take n) := by
  constructor
  · intro h
    have hle := ItemWalk.le_of_exact_eq_complete h
    obtain ⟨items, after, hlength, hitems, hb, hn⟩ := exists_items (.inl (Nat.zero_add _)) h
    obtain ⟨item, rfl⟩ := List.length_eq_one_iff.1 hlength
    rw [List.flatten_singleton] at hb hn
    rw [Nat.zero_add] at hn
    refine ⟨hle, ?_⟩
    rw [hb, hn, List.take_left]
    exact hitems item (List.mem_singleton_self _)
  · rintro ⟨hle, hitem⟩
    have hpaid := trades_of_isItem hitem (b.drop n) b.length 0 0
    rw [List.take_append_drop, List.length_take, Nat.min_eq_left hle] at hpaid
    rw [hpaid, ItemWalk.exact_zero, if_neg (by omega), Nat.zero_add]

/-- The walk refuses a buffer if and only if it comes upon the unused marker. -/
private theorem exact_eq_invalid_iff :
    ItemWalk.exact b.length 0 1 b = .invalid ↔
      ∃ front after, LeadsIn front ∧ b = front ++ unused :: after := by
  constructor
  · intro h
    obtain ⟨items, front, after, hlength, -, hfront, hb⟩ :=
      exists_leadsIn (.inl (Nat.zero_add _)) h
    obtain rfl := List.eq_nil_of_length_eq_zero (Nat.lt_one_iff.1 hlength)
    exact ⟨front, after, hfront, hb⟩
  · rintro ⟨front, after, hfront, hb⟩
    conv => lhs; rw [hb]
    exact exact_of_leadsIn hfront _ 0 0 after

/-- **The walk follows the format.**  Of a buffer that begins with a message in MessagePack a fresh
scanner says:

* that the first `n` bytes are complete exactly if they are one item, which they are for one `n` at
  most;
* that there can be no message exactly if the unused marker stands where an item has to begin, and
  all items before it are complete but for those that it lies in;
* and otherwise that bytes are missing.

A number of items or a position that stops at the greatest word makes no difference to that. -/
theorem frameOf_follows_format {first : UInt8} {rest : Bytes} (small : b.length < 2 ^ 63)
    (hb : b = first :: rest)
    (start : Bytes.isSeparator first = false ∧ first ≠ 0x5B ∧ first ≠ 0x7B) :
    (∀ n, frameOf b = .complete n ↔ n ≤ b.length ∧ IsItem (b.take n)) ∧
    (∀ m n, m ≤ b.length → n ≤ b.length → IsItem (b.take m) → IsItem (b.take n) → m = n) ∧
    (frameOf b = .invalid ↔ ∃ front after, LeadsIn front ∧ b = front ++ unused :: after) ∧
    ((∃ needed, frameOf b = .incomplete needed) ↔
      (∀ n ≤ b.length, ¬ IsItem (b.take n)) ∧
        ∀ front after, LeadsIn front → b ≠ front ++ unused :: after) ∧
    frameOf b = ItemWalk.exact b.length 0 1 b := by
  have hexact := frameOf_eq_exact small hb start.1 (Codec.sniff_eq_messagePack start.2)
  have hcomplete (n : Nat) : frameOf b = .complete n ↔ n ≤ b.length ∧ IsItem (b.take n) := by
    rw [hexact, exact_eq_complete_iff]
  have hinvalid : frameOf b = .invalid ↔
      ∃ front after, LeadsIn front ∧ b = front ++ unused :: after := by
    rw [hexact, exact_eq_invalid_iff]
  refine ⟨hcomplete, ?_, hinvalid, ?_, hexact⟩
  · intro m n hm hn hitem hitem'
    have hframe := (hcomplete m).2 ⟨hm, hitem⟩
    rw [(hcomplete n).2 ⟨hn, hitem'⟩] at hframe
    exact (Frame.complete.inj hframe).symm
  · constructor
    · rintro ⟨needed, hframe⟩
      constructor
      · intro n hn hitem
        rw [(hcomplete n).2 ⟨hn, hitem⟩] at hframe
        cases hframe
      · intro front after hfront hmarker
        rw [hinvalid.2 ⟨front, after, hfront, hmarker⟩] at hframe
        cases hframe
    · rintro ⟨hnone, hunused⟩
      cases hframe : frameOf b with
      | complete n =>
        obtain ⟨hn, hitem⟩ := (hcomplete n).1 hframe
        exact absurd hitem (hnone n hn)
      | incomplete needed => exact ⟨needed, rfl⟩
      | invalid =>
        obtain ⟨front, after, hfront, hmarker⟩ := hinvalid.1 hframe
        exact absurd hmarker (hunused front after hfront)

/-- A map with nil for a key and an extension for its value, which no message may hold; the unused
marker among the items of an array, and the same byte in an extension that is cut off. -/
theorem frameOf_follows_format_kinds :
    IsItem [0x81, 0xC0, 0xC7, 0x01, 0x05, 0xC1] ∧
      (∃ front after, LeadsIn front ∧ [0x92, 0xA1, 0xC1, 0xC1] = front ++ unused :: after) ∧
      ∀ front after, LeadsIn front → [0x92, 0xD5, 0x05, 0xC1] ≠ front ++ unused :: after := by
  let kinds : Bytes := [0x81, 0xC0, 0xC7, 0x01, 0x05, 0xC1]
  let refused : Bytes := [0x92, 0xA1, 0xC1, 0xC1]
  let cut : Bytes := [0x92, 0xD5, 0x05, 0xC1]
  have hcomplete : frameOf kinds = .complete 6 := by cbv
  have hinvalid : frameOf refused = .invalid := by cbv
  have hincomplete : frameOf cut = .incomplete 6 := by cbv
  obtain ⟨hkinds, -⟩ := frameOf_follows_format (b := kinds) (by decide) rfl (by decide)
  obtain ⟨-, -, hrefused, -⟩ := frameOf_follows_format (b := refused) (by decide) rfl (by decide)
  obtain ⟨-, -, -, hcut, -⟩ := frameOf_follows_format (b := cut) (by decide) rfl (by decide)
  exact ⟨((hkinds 6).1 hcomplete).2, hrefused.1 hinvalid, (hcut.1 ⟨6, hincomplete⟩).2⟩

end Scanner

end ForwardIntake
