import ForwardIntake.Proofs.MessagePack.Walk
import ForwardIntake.Proofs.Wire.Reading

/-!
# MessagePack with more bytes behind it

A reader of MessagePack looks at nothing before its turn.  So whatever it comes to, except that
bytes are missing, it still comes to when more of them arrive: the same value with more behind it,
or the same error (`steady_value`).  What follows a value has no influence on it at all
(`value_eq_done_append`).
-/

namespace ForwardIntake

namespace MessagePack

open ForwardIntake.Frame
open Reading (Steady)

/-- The word behind a marker is waited for and then read. -/
private theorem steady_word (width : Nat) (make : Nat → Head) : Steady (word width make) := by
  intro b hb more
  cases h : Bytes.split? width b with
  | none => exact absurd (by rw [word, h]) hb
  | some found => simp [word, h, Bytes.split?_append_of_some more h]

private theorem steady_payload {α : Type} (length : Nat) (make : Bytes → α) :
    Steady (payload length make) := by
  intro b hb more
  cases h : Bytes.split? length b with
  | none => exact absurd (by rw [payload, h]) hb
  | some found => simp [payload, h, Bytes.split?_append_of_some more h]

/-- A head is decided by its marker and the word behind it. -/
private theorem steady_head : Steady head := by
  intro b hb more
  cases b with
  | nil => exact absurd rfl hb
  | cons marker rest =>
    rw [List.cons_append]
    cases agreement marker with
    | marker h read walk => simp [read]
    | word width make read walk scalar =>
      rw [read] at hb ⊢
      rw [read]
      exact steady_word width make rest hb more
    | sized width make measure read walk counts =>
      rw [read] at hb ⊢
      rw [read]
      exact steady_word width make rest hb more
    | extension width read walk =>
      rw [read] at hb ⊢
      rw [read]
      exact steady_word width _ rest hb more
    | fixedExtension read => simp [read]
    | reserved read => simp [read]

private theorem steady_key (room : Nat) : Steady (key room) := by
  refine steady_head.bind fun h => ?_
  cases h with
  | text length => exact steady_payload length _
  | binary length => exact steady_payload length _
  | _ => exact fun _ _ _ => rfl

private theorem steady_items {item : Bytes → Reading Error Value} (hitem : Steady item) (n : Nat)
    (acc : List Value) : Steady (items item n acc) := by
  induction n generalizing acc with
  | zero => exact fun _ _ _ => rfl
  | succ n ih =>
    rw [items_succ]
    exact hitem.bind fun v => ih (v :: acc)

private theorem steady_fields {key : Bytes → Reading Error String}
    {item : Bytes → Reading Error Value}
    (hkey : Steady key) (hitem : Steady item) (n : Nat) (acc : Fields) :
    Steady (fields key item n acc) := by
  induction n generalizing acc with
  | zero => exact fun _ _ _ => rfl
  | succ n ih =>
    rw [fields_succ]
    exact hkey.bind fun k => hitem.bind fun v => ih (acc.insert k v)

/-- A value is steady if the values inside of it are. -/
private theorem steady_value_of_inner {room : Nat}
    (inner : ∀ deeper, room = deeper + 1 → Steady (value deeper)) : Steady (value room) := by
  intro b hb more
  cases hhead : head b with
  | incomplete => exact absurd (by rw [value.eq_def, hhead]) hb
  | failed error =>
    rw [value.eq_def room (b ++ more), value.eq_def room b, steady_head.failed hhead more, hhead]
    rfl
  | done h after =>
    rw [value.eq_def, hhead] at hb
    rw [value.eq_def room (b ++ more), value.eq_def room b, steady_head.done hhead more, hhead]
    cases h with
    | text length => exact steady_payload length textValue after hb more
    | binary length => exact steady_payload length Value.binary after hb more
    | array count =>
      cases room with
      | zero => rfl
      | succ deeper => exact (steady_items (inner _ rfl) count []).map Value.array after hb more
    | map count =>
      cases room with
      | zero => rfl
      | succ deeper =>
        exact (steady_fields (steady_key deeper) (inner _ rfl) count []).map Value.map after hb more
    | _ => rfl

/-- **What the reader of values has decided stays decided.** -/
theorem steady_value (room : Nat) : Steady (value room) := by
  induction room with
  | zero => exact steady_value_of_inner fun _ h => absurd h (Nat.succ_ne_zero _).symm
  | succ room ih => exact steady_value_of_inner fun _ h => Nat.succ.inj h ▸ ih

/-- **A value is read from its own bytes**, and what follows them has no influence. -/
theorem value_eq_done_append {room : Nat} {b after : Bytes} {v : Value}
    (h : value room b = .done v after) :
    ∃ front, b = front ++ after ∧ ∀ more, value room (front ++ more) = .done v more := by
  obtain ⟨front, rfl, htrades⟩ := (tracked_value room).done h
  refine ⟨front, rfl, fun more => ?_⟩
  cases hfront : value room front with
  | done v' after' =>
    have hwhole := (steady_value room).done hfront after
    rw [h] at hwhole
    obtain ⟨rfl, hafter⟩ := Reading.done.inj hwhole
    have hnil : after' = [] := List.append_left_eq_self.1 hafter.symm
    have hmore := (steady_value room).done hfront more
    rwa [hnil, List.nil_append] at hmore
  | failed error =>
    have hwhole := (steady_value room).failed hfront after
    rw [h] at hwhole
    cases hwhole
  | incomplete =>
    -- the walk over the whole ends with `front`, but the walk over `front` asks for more
    obtain ⟨needed, hneeded⟩ :=
      (tracked_value room).incomplete hfront front.length 0 0 (.inl (Nat.zero_add _))
    have hlt := ItemWalk.lt_of_exact_eq_incomplete (.inl (Nat.zero_add _)) hneeded
    have hle := ItemWalk.le_reach_exact_append after hneeded
    rw [List.drop_zero, htrades, ItemWalk.exact_zero, if_neg (by simp)] at hle
    simp only [reach, Nat.zero_add] at hle
    omega

end MessagePack

end ForwardIntake
