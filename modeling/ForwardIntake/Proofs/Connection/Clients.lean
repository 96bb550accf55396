import ForwardIntake.Proofs.Connection.Steps
import Mathlib

/-!
# Who is in the registry

Ids and tokens are given out in the order of the sessions (`Hub.Numbered`).  Only the making of a
session enters a client, and whatever else happens, entries can only go and tokens can only be
cancelled (`Hub.Quiet`).  Until the ids are used up, a session that is not over has its entry
(`Hub.listed_of_reaches`); and there is no entry without such a session (`Hub.owned_of_reaches`).
-/

namespace ForwardIntake

variable {σ : Type}

namespace Hub

variable {h h' h'' : Hub σ} {i : Nat} {s : Session}

/-! ### What happens without new clients -/

/-- No client is entered, and none that was shut down is brought back. -/
structure Quiet (h h' : Hub σ) : Prop where
  sessions : h'.sessions.length = h.sessions.length
  next : h'.registry.next = h.registry.next
  issued : h'.registry.issued = h.registry.issued
  live : h'.registry.live ⊆ h.registry.live
  cancelled : h.registry.cancelled ⊆ h'.registry.cancelled

theorem Quiet.refl (h : Hub σ) : Quiet h h :=
  ⟨rfl, rfl, rfl, List.Subset.refl _, List.Subset.refl _⟩

theorem Quiet.trans (h₁ : Quiet h h') (h₂ : Quiet h' h'') : Quiet h h'' :=
  ⟨h₂.sessions.trans h₁.sessions, h₂.next.trans h₁.next, h₂.issued.trans h₁.issued,
    List.Subset.trans h₂.live h₁.live, List.Subset.trans h₁.cancelled h₂.cancelled⟩

/-- A cancelled client stays cancelled. -/
theorem Quiet.isCancelled (hquiet : Quiet h h') {token : Token}
    (hcancelled : h.registry.isCancelled token = true) :
    h'.registry.isCancelled token = true := by
  simp only [Registry.isCancelled, List.contains_iff_mem] at hcancelled ⊢
  exact hquiet.cancelled hcancelled

/-- Settling a session is quiet. -/
private theorem quiet_settle (i : Nat) (s : Session) (h : Hub σ) : Quiet h (h.settle i s) := by
  rw [settle]
  split
  · exact ⟨List.length_set, rfl, rfl, List.filter_sublist.subset, List.Subset.refl _⟩
  · exact ⟨List.length_set, rfl, rfl, List.Subset.refl _, List.Subset.refl _⟩

/-- So is settling one after a step, with its effects on the sink and the counters. -/
private theorem quiet_settle_step (i : Nat) (s : Session) (h : Hub σ) (sink : σ) (stats : Stats) :
    Quiet h ({ h with sink, stats }.settle i s) := by
  have hquiet := quiet_settle i s { h with sink, stats }
  exact ⟨hquiet.sessions, hquiet.next, hquiet.issued, hquiet.live, hquiet.cancelled⟩

theorem quiet_of_abort (habort : h.abort i = some h') : Quiet h h' := by
  obtain ⟨s, -, habort⟩ := Option.bind_eq_some_iff.1 habort
  split at habort
  · split at habort
    · cases habort
      exact quiet_settle i _ h
    · cases habort
  · cases habort

theorem quiet_feed (i : Nat) (f : Feed → Feed) (h : Hub σ) : Quiet h (h.feed i f) :=
  ⟨List.length_modify _ _ _, rfl, rfl, List.Subset.refl _, List.Subset.refl _⟩

private theorem quiet_shutdownAll (h : Hub σ) : Quiet h h.shutdownAll :=
  ⟨rfl, rfl, rfl, List.Subset.refl _, List.subset_append_right _ _⟩

variable [Sink σ]

theorem quiet_of_advance (hadvance : h.advance i = some h') : Quiet h h' := by
  obtain ⟨s, -, hadvance⟩ := Option.bind_eq_some_iff.1 hadvance
  obtain ⟨⟨s', sink, stats⟩, -, rfl⟩ := Option.map_eq_some_iff.1 hadvance
  exact quiet_settle_step i s' h sink stats

/-- An action makes a session or is quiet. -/
theorem Change.quiet_or_accepts (hchange : Change h h') :
    Quiet h h' ∨ ∃ peer feed, h' = h.accept peer feed := by
  cases hchange with
  | accepts peer feed => exact .inr ⟨peer, feed, rfl⟩
  | advances => exact .inl (quiet_settle_step _ _ h _ _)
  | discards => exact .inl (quiet_settle _ _ _)
  | aborts => exact .inl (quiet_settle _ _ _)
  | feeds i f => exact .inl (quiet_feed i f h)
  | cancels token =>
    exact .inl ⟨rfl, rfl, rfl, List.Subset.refl _, List.subset_cons_self token _⟩
  | sweeps => exact .inl (quiet_shutdownAll h)
  | rests => exact .inl (.refl h)

/-! ### Ids and tokens -/

/-- Ids and tokens are given out in the order of the sessions. -/
structure Numbered (h : Hub σ) : Prop where
  next : h.registry.next = UInt64.ofNat h.sessions.length
  issued : h.registry.issued = h.sessions.length
  session : ∀ (i : Nat) (s : Session), h.sessions[i]? = some s →
    s.id = UInt64.ofNat i ∧ s.token = ⟨i⟩

/-- Sessions keep their numbers. -/
private theorem Numbered.change (hn : Numbered h) (hchange : Change h h') : Numbered h' := by
  have hsession (i : Nat) (t : Session) (hat : h'.sessions[i]? = some t) :
      t.id = UInt64.ofNat i ∧ t.token = ⟨i⟩ := by
    rcases hchange.of_session hat with ⟨s, hs, hnext⟩ | ⟨peer, feed, rfl, -, rfl⟩
    · obtain ⟨hid, htoken⟩ := hn.session i s hs
      obtain ⟨hid', htoken'⟩ := hnext.sameClient
      exact ⟨hid'.trans hid, htoken'.trans htoken⟩
    · exact ⟨hn.next, congrArg Token.mk hn.issued⟩
  rcases hchange.quiet_or_accepts with hquiet | ⟨peer, feed, rfl⟩
  · refine ⟨?_, ?_, hsession⟩
    · rw [hquiet.next, hquiet.sessions, hn.next]
    · rw [hquiet.issued, hquiet.sessions, hn.issued]
  · have hlength : (h.accept peer feed).sessions.length = h.sessions.length + 1 := by simp
    refine ⟨?_, ?_, hsession⟩
    · have hnext : (h.accept peer feed).registry.next = h.registry.next + 1 := rfl
      rw [hnext, hlength, hn.next, UInt64.ofNat_add]
      rfl
    · have hissued : (h.accept peer feed).registry.issued = h.registry.issued + 1 := rfl
      rw [hissued, hlength, hn.issued]

omit [Sink σ] in
/-- No two sessions have one id, as long as the ids are not used up. -/
theorem Numbered.eq_of_id_eq (hn : Numbered h) (hlength : h.sessions.length ≤ 2 ^ 64) {j : Nat}
    {t : Session} (hs : h.sessions[i]? = some s) (ht : h.sessions[j]? = some t)
    (hid : s.id = t.id) : i = j := by
  have hi : i < UInt64.size := Nat.lt_of_lt_of_le (List.getElem?_eq_some_iff.1 hs).1 hlength
  have hj : j < UInt64.size := Nat.lt_of_lt_of_le (List.getElem?_eq_some_iff.1 ht).1 hlength
  rw [(hn.session i s hs).1, (hn.session j t ht).1] at hid
  have hnat := congrArg UInt64.toNat hid
  rwa [UInt64.toNat_ofNat_of_lt' hi, UInt64.toNat_ofNat_of_lt' hj] at hnat

/-! ### Entries -/

omit [Sink σ] in
/-- A settled session leaves the registry only if it is over. -/
private theorem mem_live_settle {handle : Handle} (hlt : i < h.sessions.length)
    (hmem : handle ∈ h.registry.live) :
    handle ∈ (h.settle i s).registry.live ∨
      ∃ (j : Nat) (t : Session), (h.settle i s).sessions[j]? = some t ∧ t.phase.isOver = true ∧
        t.id = handle.id := by
  by_cases hover : s.phase.isOver = true
  · by_cases hid : handle.id = s.id
    · exact .inr ⟨i, s, List.getElem?_set_self hlt, hover, hid.symm⟩
    · refine .inl ?_
      rw [settle, if_pos hover]
      exact List.mem_filter.2 ⟨hmem, bne_iff_ne.2 hid⟩
  · refine .inl ?_
    rw [settle, if_neg hover]
    exact hmem

/-- An entry stays unless the session under its id is over or its id is given out again. -/
private theorem Change.mem_live {handle : Handle} (hchange : Change h h')
    (hmem : handle ∈ h.registry.live) :
    handle ∈ h'.registry.live ∨
      (∃ (j : Nat) (t : Session),
        h'.sessions[j]? = some t ∧ t.phase.isOver = true ∧ t.id = handle.id) ∨
      ∃ peer feed, h' = h.accept peer feed ∧ handle.id = h.registry.next := by
  cases hchange with
  | accepts peer feed =>
    by_cases hid : handle.id = h.registry.next
    · exact .inr (.inr ⟨peer, feed, rfl, hid⟩)
    · refine .inl (List.mem_append_left _ (List.mem_filter.2 ⟨hmem, bne_iff_ne.2 hid⟩))
  | @advances i s s' sink stats place =>
    have hlt := (List.getElem?_eq_some_iff.1 place).1
    exact (mem_live_settle (h := { h with sink, stats }) hlt hmem).imp_right .inl
  | discards place | aborts place =>
    have hlt := (List.getElem?_eq_some_iff.1 place).1
    exact (mem_live_settle hlt hmem).imp_right .inl
  | feeds | cancels | sweeps | rests => exact .inl hmem

/-- A session that is not over has its entry, as long as the ids are not used up. -/
def Listed (h : Hub σ) : Prop :=
  h.sessions.length ≤ 2 ^ 64 → ∀ (i : Nat) (s : Session), h.sessions[i]? = some s →
    s.phase.isOver = false → ∃ handle ∈ h.registry.live, handle.id = s.id ∧ handle.token = s.token

private theorem Listed.change (hl : Listed h) (hn : Numbered h) (hchange : Change h h') :
    Listed h' := by
  intro hlength i t hat hgoes
  have hn' := hn.change hchange
  rcases hchange.of_session hat with ⟨s, hs, hnext⟩ | ⟨peer, feed, -, rfl, rfl⟩
  · obtain ⟨hid, htoken⟩ := hnext.sameClient
    have hgoes' : s.phase.isOver = false := by
      rw [← Bool.not_eq_true] at hgoes ⊢
      exact fun hover => hgoes (hnext.isOver hover)
    obtain ⟨handle, hmem, hhandle⟩ := hl (hchange.length_le.trans hlength) i s hs hgoes'
    rw [← hid, ← htoken] at hhandle
    rcases hchange.mem_live hmem with hstays | ⟨j, u, hu, hover, hshared⟩ | ⟨peer, feed, rfl, hnew⟩
    · exact ⟨handle, hstays, hhandle⟩
    · -- the entry is taken out by its own session only
      obtain rfl : i = j := hn'.eq_of_id_eq hlength hat hu (hhandle.1.symm.trans hshared.symm)
      obtain rfl : t = u := Option.some.inj (hat.symm.trans hu)
      rw [hover] at hgoes
      cases hgoes
    · -- the id of the new session is not in use
      have hlt := (List.getElem?_eq_some_iff.1 hs).1
      have hlast : (h.accept peer feed).sessions[h.sessions.length]? =
          some (.new h.registry.next ⟨h.registry.issued⟩ feed) := List.getElem?_concat_length
      have hsame := hn'.eq_of_id_eq hlength hat hlast (hhandle.1.symm.trans hnew)
      omega
  · exact ⟨_, List.mem_append_right _ (List.mem_singleton_self _), rfl, rfl⟩

/-- Sessions are numbered in every run. -/
theorem numbered_of_reaches {limit : Nat} {sink : σ} (hreach : Reaches act (.new limit sink) h) :
    Numbered h := by
  refine hreach.invariant (fun hn hact => hn.change (.of_act hact)) ⟨rfl, rfl, ?_⟩
  intro i s hat
  simp at hat

/-- **Entries.**  Wherever a run has led, a session that is not over has its entry, as long as the
ids are not used up. -/
theorem listed_of_reaches {limit : Nat} {sink : σ} (hreach : Reaches act (.new limit sink) h) :
    Listed h := by
  have hall : Reaches act (.new limit sink) h ∧ Listed h := by
    refine hreach.invariant (P := fun h : Hub σ => Reaches act (.new limit sink) h ∧ Listed h) ?_
      ⟨.refl act _, ?_⟩
    · rintro h a h' ⟨hreach, hl⟩ hact
      exact ⟨hreach.tail hact, hl.change (numbered_of_reaches hreach) (.of_act hact)⟩
    · intro _ i s hat
      simp at hat
  exact hall.2

/-! ### Entries of sessions -/

/-- Every entry is of a session that is not over. -/
def Owned (h : Hub σ) : Prop :=
  ∀ handle ∈ h.registry.live, ∃ (i : Nat) (s : Session), h.sessions[i]? = some s ∧
    s.phase.isOver = false ∧ s.id = handle.id ∧ s.token = handle.token

omit [Sink σ] in
/-- A session that is over takes every entry under its id with it. -/
private theorem Owned.settle {s' : Session} (ho : Owned h) (place : h.sessions[i]? = some s)
    (hsame : s.SameClient s') : Owned (h.settle i s') := by
  intro handle hmem
  have hlt := (List.getElem?_eq_some_iff.1 place).1
  have hlive : handle ∈ h.registry.live ∧ (s'.phase.isOver = true → handle.id ≠ s'.id) := by
    by_cases hover : s'.phase.isOver = true
    · rw [Hub.settle, if_pos hover] at hmem
      obtain ⟨hmem, hne⟩ := List.mem_filter.1 hmem
      exact ⟨hmem, fun _ => bne_iff_ne.1 hne⟩
    · rw [Hub.settle, if_neg hover] at hmem
      exact ⟨hmem, fun h => absurd h hover⟩
  obtain ⟨j, t, hat, hgoes, hid, htoken⟩ := ho handle hlive.1
  by_cases hij : i = j
  · subst hij
    obtain rfl : s = t := Option.some.inj (place.symm.trans hat)
    refine ⟨i, s', List.getElem?_set_self hlt, ?_, hsame.1.trans hid, hsame.2.trans htoken⟩
    rw [← Bool.not_eq_true]
    exact fun hover => hlive.2 hover (hid.symm.trans hsame.1.symm)
  · exact ⟨j, t, (List.getElem?_set_ne hij).trans hat, hgoes, hid, htoken⟩

private theorem Owned.change (ho : Owned h) (hchange : Change h h') : Owned h' := by
  cases hchange with
  | accepts peer feed =>
    intro handle hmem
    rcases List.mem_append.1 hmem with hold | hnew
    · obtain ⟨j, t, hat, hgoes⟩ := ho handle (List.mem_filter.1 hold).1
      have hlt := (List.getElem?_eq_some_iff.1 hat).1
      exact ⟨j, t, (List.getElem?_append_left hlt).trans hat, hgoes⟩
    · obtain rfl := List.mem_singleton.1 hnew
      exact ⟨h.sessions.length, _, List.getElem?_concat_length, rfl, rfl, rfl⟩
  | @advances i s s' sink stats place step =>
    exact Owned.settle (h := { h with sink, stats }) ho place step.sameClient
  | discards place => exact ho.settle place ⟨rfl, rfl⟩
  | aborts place => exact ho.settle place ⟨rfl, rfl⟩
  | feeds j f =>
    intro handle hmem
    obtain ⟨i, s, hat, hgoes⟩ := ho handle hmem
    refine ⟨i, _, (List.getElem?_modify ..).trans (congrArg (Option.map _) hat), ?_⟩
    split
    · exact hgoes
    · exact hgoes
  | cancels | sweeps | rests => exact ho

/-- **Entries go with their sessions**: wherever a run has led, every entry is of a session that is
not over, even when ids are used again. -/
theorem owned_of_reaches {limit : Nat} {sink : σ} (hreach : Reaches act (.new limit sink) h) :
    Owned h :=
  hreach.invariant (fun ho hact => ho.change (.of_act hact)) (List.forall_mem_nil _)

end Hub

end ForwardIntake
