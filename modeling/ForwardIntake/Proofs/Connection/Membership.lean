import ForwardIntake.Proofs.Connection.Clients
import ForwardIntake.Sink.JsonLines

/-!
# The registry holds the sessions that go on

A client is entered when its session is made and taken out when its session is over, and nothing
else changes who is in the registry.  Under each id there is at most one entry
(`Hub.distinct_of_reaches`), so as long as the ids are not used up the entries are those of the
sessions that are not over, one for each (`Hub.entries_perm_going`).  Whichever way a session ends,
it takes its own entry with it and leaves the others (`Hub.registry_tracks_sessions`).
-/

namespace ForwardIntake

/-! ### One entry for each id -/

namespace Registry

variable {r : Registry}

/-- Ids stay distinct when one of them leaves. -/
theorem nodup_deregister (id : ConnectionId) (h : (r.live.map (·.id)).Nodup) :
    ((r.deregister id).live.map (·.id)).Nodup :=
  h.sublist (List.filter_sublist.map _)

/-- Ids stay distinct when one of them is entered again. -/
theorem nodup_register (handle : Handle) (h : (r.live.map (·.id)).Nodup) :
    ((r.register handle).live.map (·.id)).Nodup := by
  have hothers := nodup_deregister handle.id h
  have hnew : handle.id ∉ (r.deregister handle.id).live.map (·.id) := by
    intro hmem
    obtain ⟨other, hother, hid⟩ := List.mem_map.1 hmem
    exact bne_iff_ne.1 (List.mem_filter.1 hother).2 hid
  have hall := (List.nodup_concat _ _).2 ⟨hnew, hothers⟩
  rw [List.concat_eq_append] at hall
  rw [register, List.map_append]
  exact hall

end Registry

namespace Session

/-- The id and the token of the client of a session. -/
def client (s : Session) : ConnectionId × Token :=
  (s.id, s.token)

end Session

namespace Hub

variable {σ : Type} {h h' : Hub σ} {i j : Nat} {s t : Session}

/-- The sessions that are not over. -/
def going (h : Hub σ) : List Session :=
  h.sessions.filter fun s => !s.phase.isOver

/-- The sessions that go on are those that are not over. -/
private theorem mem_going : s ∈ h.going ↔ s ∈ h.sessions ∧ s.phase.isOver = false := by
  rw [going, List.mem_filter, Bool.not_eq_true']

/-- The clients in the registry, each with its token. -/
def entries (h : Hub σ) : List (ConnectionId × Token) :=
  h.registry.live.map fun handle => (handle.id, handle.token)

/-- No two entries are under one id. -/
def Distinct (h : Hub σ) : Prop :=
  (h.registry.live.map (·.id)).Nodup

/-- Settling a session keeps the ids distinct. -/
private theorem Distinct.settle (hd : Distinct h) (i : Nat) (s : Session) :
    Distinct (h.settle i s) := by
  rw [Distinct, Hub.settle]
  split
  · exact Registry.nodup_deregister s.id hd
  · exact hd

variable [Sink σ]

/-- Ids stay distinct in every change. -/
private theorem Distinct.change (hd : Distinct h) (hchange : Change h h') : Distinct h' := by
  cases hchange with
  | accepts peer feed =>
    exact Registry.nodup_register (r := h.registry.allocate.2.issue.2) ⟨_, peer, _⟩ hd
  | @advances i s s' sink stats => exact Distinct.settle (h := { h with sink, stats }) hd i s'
  | discards | aborts => exact hd.settle _ _
  | feeds | cancels | sweeps | rests => exact hd

/-! ### Entries and sessions -/

variable {limit : Nat} {sink : σ}

/-- Ids are distinct in every run. -/
private theorem distinct_of_reaches (hreach : Reaches act (.new limit sink) h) : Distinct h :=
  hreach.invariant (fun hd hact => hd.change (.of_act hact)) List.nodup_nil

omit [Sink σ] in
/-- What tells the place of a session is different for each of them. -/
private theorem nodup_map_sessions {β : Type} {f : Session → β}
    (hplace : ∀ (i j : Nat) (s t : Session), h.sessions[i]? = some s → h.sessions[j]? = some t →
      f s = f t → i = j) : (h.sessions.map f).Nodup := by
  rw [List.nodup_iff_getElem?_ne_getElem?]
  intro i j hij hj hsame
  rw [List.length_map] at hj
  have hat := List.getElem?_eq_getElem (Nat.lt_trans hij hj)
  have hat' := List.getElem?_eq_getElem hj
  rw [List.getElem?_map, List.getElem?_map, hat, hat'] at hsame
  have heq := hplace i j _ _ hat hat' (Option.some.inj hsame)
  omega

omit [Sink σ] in
/-- Up to `2 ^ 64` sessions have distinct ids. -/
private theorem Numbered.nodup_ids (hn : Numbered h) (hlength : h.sessions.length ≤ 2 ^ 64) :
    (h.sessions.map (·.id)).Nodup :=
  nodup_map_sessions fun _ _ _ _ hs ht hid => hn.eq_of_id_eq hlength hs ht hid

omit [Sink σ] in
private theorem Numbered.nodup_tokens (hn : Numbered h) : (h.sessions.map (·.token)).Nodup := by
  refine nodup_map_sessions fun i j s t hs ht htoken => ?_
  rw [(hn.session i s hs).2, (hn.session j t ht).2] at htoken
  exact congrArg Token.serial htoken

/-- **The entries are those of the sessions that go on**, one for each, as long as the ids are not
used up. -/
private theorem entries_perm_going (hreach : Reaches act (.new limit sink) h)
    (hlength : h.sessions.length ≤ 2 ^ 64) : h.entries.Perm (h.going.map Session.client) := by
  have hn := numbered_of_reaches hreach
  have hentries : h.entries.Nodup := by
    refine List.Nodup.of_map Prod.fst ?_
    rw [entries, List.map_map]
    exact distinct_of_reaches hreach
  have hclients : (h.going.map Session.client).Nodup := by
    refine List.Nodup.of_map Prod.fst ?_
    rw [List.map_map]
    exact (hn.nodup_ids hlength).sublist (List.filter_sublist.map _)
  refine (List.perm_ext_iff_of_nodup hentries hclients).2 fun client =>
    ⟨fun hmem => ?_, fun hmem => ?_⟩
  · obtain ⟨handle, hlive, rfl⟩ := List.mem_map.1 hmem
    obtain ⟨i, s, hat, hgoes, hid, htoken⟩ := owned_of_reaches hreach handle hlive
    exact List.mem_map.2 ⟨s, mem_going.2 ⟨List.mem_of_getElem? hat, hgoes⟩, Prod.ext hid htoken⟩
  · obtain ⟨s, hs, rfl⟩ := List.mem_map.1 hmem
    obtain ⟨hs, hgoes⟩ := mem_going.1 hs
    obtain ⟨i, hat⟩ := List.getElem?_of_mem hs
    obtain ⟨handle, hlive, hid, htoken⟩ := listed_of_reaches hreach hlength i s hat hgoes
    exact List.mem_map.2 ⟨handle, hlive, Prod.ext hid htoken⟩

omit [Sink σ] in
/-- The registry contains the ids of the sessions that go on. -/
private theorem contains_iff_exists_going (hperm : h.entries.Perm (h.going.map Session.client))
    (id : ConnectionId) : h.registry.contains id = true ↔ ∃ s ∈ h.going, s.id = id := by
  have hids := hperm.map Prod.fst
  rw [entries, List.map_map, List.map_map] at hids
  have hmem := hids.mem_iff (a := id)
  simp only [List.mem_map, Function.comp_apply, Session.client] at hmem
  rw [← hmem, Registry.contains, List.any_eq_true]
  simp only [beq_iff_eq]

omit [Sink σ] in
/-- A sweep cancels the tokens of the sessions that go on, and no others. -/
private theorem isCancelled_shutdownAll_iff (hperm : h.entries.Perm (h.going.map Session.client))
    (token : Token) : h.shutdownAll.registry.isCancelled token = true ↔
      h.registry.isCancelled token = true ∨ ∃ s ∈ h.going, s.token = token := by
  have htokens := hperm.map Prod.snd
  rw [entries, List.map_map, List.map_map] at htokens
  have hmem := htokens.mem_iff (a := token)
  simp only [List.mem_map, Function.comp_apply, Session.client] at hmem
  rw [← hmem, shutdownAll, Registry.shutdownAll, Registry.isCancelled, Registry.isCancelled,
    List.contains_iff_mem, List.contains_iff_mem, List.mem_append, List.mem_map, or_comm]

/-- An entry goes with its own session only. -/
private theorem ends_of_mem_entries {a : Action} {client : ConnectionId × Token}
    (hreach : Reaches act (.new limit sink) h) (hact : h.act a = some h')
    (hlength : h'.sessions.length ≤ 2 ^ 64) (hmem : client ∈ h.entries)
    (hgone : client ∉ h'.entries) :
    ∃ (i : Nat) (s t : Session), h.sessions[i]? = some s ∧ s.phase.isOver = false ∧
      s.client = client ∧ h'.sessions[i]? = some t ∧ t.phase.isOver = true := by
  have hchange := Change.of_act hact
  obtain ⟨s, hs, rfl⟩ := List.mem_map.1
    ((entries_perm_going hreach (hchange.length_le.trans hlength)).mem_iff.1 hmem)
  obtain ⟨hs, hgoes⟩ := mem_going.1 hs
  obtain ⟨i, hat⟩ := List.getElem?_of_mem hs
  obtain ⟨t, hat', hnext⟩ := hchange.session hat
  refine ⟨i, s, t, hat, hgoes, rfl, hat', ?_⟩
  rw [← Bool.not_eq_false]
  intro hgoes'
  have hclient : t.client = s.client := Prod.ext hnext.sameClient.1 hnext.sameClient.2
  refine hgone ((entries_perm_going (hreach.tail hact) hlength).mem_iff.2 ?_)
  rw [← hclient]
  exact List.mem_map_of_mem (mem_going.2 ⟨List.mem_of_getElem? hat', hgoes'⟩)

/-- **The registry tracks the sessions.**  Wherever a run has led, as long as the ids are not used
up:

* The entries are those of the sessions that are not over, one for each, under their ids and with
  their tokens.  So a client is in the registry exactly as long as its session is not over, however
  it ends.  No two sessions have one id or one token.
* A new session is in the registry before its first read.
* An action that takes out an entry ends the session of this entry.
* A sweep counts the sessions that go on and cancels exactly their tokens, and nobody is entered or
  taken out. -/
theorem registry_tracks_sessions (hreach : Reaches act (.new limit sink) h)
    (hlength : h.sessions.length ≤ 2 ^ 64) :
    (∀ id, h.registry.contains id = true ↔ ∃ s ∈ h.going, s.id = id) ∧
    (∀ s ∈ h.sessions, h.registry.contains s.id = !s.phase.isOver) ∧
    h.entries.Perm (h.going.map Session.client) ∧
    (h.sessions.map (·.id)).Nodup ∧ (h.sessions.map (·.token)).Nodup ∧
    (∀ peer feed, ∃ s, (h.accept peer feed).sessions[h.sessions.length]? = some s ∧
      s.phase = .created ∧ s.reads = 0 ∧
      (h.accept peer feed).registry.contains s.id = true) ∧
    (∀ a h', h.act a = some h' → h'.sessions.length ≤ 2 ^ 64 →
      ∀ client ∈ h.entries, client ∉ h'.entries →
        ∃ (i : Nat) (s t : Session), h.sessions[i]? = some s ∧ s.phase.isOver = false ∧
          s.client = client ∧ h'.sessions[i]? = some t ∧ t.phase.isOver = true) ∧
    h.registry.shutdownAll.1 = h.going.length ∧
    (∀ token, h.shutdownAll.registry.isCancelled token = true ↔
      h.registry.isCancelled token = true ∨ ∃ s ∈ h.going, s.token = token) ∧
    h.shutdownAll.registry.live = h.registry.live ∧ h.shutdownAll.sessions = h.sessions := by
  have hn := numbered_of_reaches hreach
  have hperm := entries_perm_going hreach hlength
  have hcontains := contains_iff_exists_going hperm
  have hids := hn.nodup_ids hlength
  refine ⟨hcontains, fun s hs => ?_, hperm, hids, hn.nodup_tokens, fun peer feed => ?_,
    fun a h' hact hlength' client => ends_of_mem_entries hreach hact hlength', ?_,
    isCancelled_shutdownAll_iff hperm, rfl, rfl⟩
  · rw [Bool.eq_iff_iff, hcontains, Bool.not_eq_true']
    refine ⟨fun hgoing => ?_, fun hgoes => ⟨s, mem_going.2 ⟨hs, hgoes⟩, rfl⟩⟩
    obtain ⟨t, ht, hid⟩ := hgoing
    obtain ⟨ht, hgoes⟩ := mem_going.1 ht
    rwa [List.inj_on_of_nodup_map hids hs ht hid.symm]
  · refine ⟨_, List.getElem?_concat_length, rfl, rfl, ?_⟩
    rw [Registry.contains_eq_isSome_find?]
    exact congrArg Option.isSome
      (Registry.find?_register_self ⟨h.registry.next, peer, ⟨h.registry.issued⟩⟩ _)
  · rw [← List.length_map (f := Session.client), ← hperm.length_eq, entries, List.length_map]
    rfl

/-- Three clients: the first one closes its connection, the session of the second one is given up
before it has started, and the third one sends a message that does not fit into the limit.  Before
the session of the third one has seen that, it is alone in the registry. -/
theorem registry_tracks_sessions_three :
    ∃ h h' : Hub JsonLines, Reaches act (.new 8 ⟨.empty⟩) h ∧ h.sessions.length = 3 ∧
      h.entries = [(2, ⟨2⟩)] ∧ h.registry.contains 0 = false ∧ h.registry.contains 1 = false ∧
      h.registry.contains 2 = true ∧ h.registry.shutdownAll.1 = 1 ∧
      h.shutdownAll.registry.isCancelled ⟨1⟩ = false ∧
      h.shutdownAll.registry.isCancelled ⟨2⟩ = true ∧
      h.act (.advance 2) = some h' ∧ h'.outcome? 2 = some (.tooLarge 8) ∧ h'.entries = [] := by
  let actions : List Action :=
    [.accept "a" (.ofArrivals []), .accept "b" .silent, .discard 1,
      .accept "c" (.ofArrivals [.chunk [0x93, 0xDB, 0x00, 0x00, 0x01, 0x00]])] ++
    .replicate 4 (.advance 0) ++ .replicate 4 (.advance 2)
  obtain ⟨h, hactions, hlength, hentries, hlive, s₀, s₁, hs₀, hover₀, hid₀, hs₁, hover₁, hid₁, h',
      hact, houtcome, hgone⟩ :
      ∃ h : Hub JsonLines, actions.foldlM act (.new 8 ⟨.empty⟩) = some h ∧
        h.sessions.length = 3 ∧ h.entries = [(2, ⟨2⟩)] ∧ h.registry.cancelled = [] ∧
        ∃ s₀ s₁, h.sessions[0]? = some s₀ ∧ s₀.phase.isOver = true ∧ s₀.id = 0 ∧
          h.sessions[1]? = some s₁ ∧ s₁.phase.isOver = true ∧ s₁.id = 1 ∧
          ∃ h', h.act (.advance 2) = some h' ∧ h'.outcome? 2 = some (.tooLarge 8) ∧
            h'.entries = [] :=
    ⟨_, by cbv, rfl, rfl, rfl, _, _, rfl, rfl, rfl, rfl, rfl, rfl, _, by cbv, rfl, rfl⟩
  have hreach : Reaches act (.new 8 (⟨.empty⟩ : JsonLines)) h := .of_actions actions hactions
  obtain ⟨hcontains, hover, hperm, -, -, -, -, hcount, hcancelled, -⟩ :=
    registry_tracks_sessions hreach (by rw [hlength]; decide)
  rw [hentries, List.singleton_perm, eq_comm, List.map_eq_singleton_iff] at hperm
  obtain ⟨s, hgoing, hclient⟩ := hperm
  obtain ⟨hid, htoken⟩ := Prod.ext_iff.1 hclient
  have hdown : h.registry.isCancelled ⟨1⟩ = false := by
    rw [Registry.isCancelled, hlive]
    rfl
  refine ⟨h, h', hreach, hlength, hentries, ?_, ?_, ?_, ?_, ?_, ?_, hact, houtcome, hgone⟩
  · rw [← hid₀, hover s₀ (List.mem_of_getElem? hs₀), hover₀, Bool.not_true]
  · rw [← hid₁, hover s₁ (List.mem_of_getElem? hs₁), hover₁, Bool.not_true]
  · exact (hcontains 2).2 ⟨s, by rw [hgoing]; exact List.mem_singleton_self s, hid⟩
  · rw [hcount, hgoing, List.length_singleton]
  · rw [← Bool.not_eq_true, hcancelled, hdown, hgoing]
    simp only [Bool.false_eq_true, List.mem_singleton, exists_eq_left, false_or]
    rw [show s.token = ⟨2⟩ from htoken]
    decide
  · exact (hcancelled ⟨2⟩).2 (.inr ⟨s, by rw [hgoing]; exact List.mem_singleton_self s, htoken⟩)

end Hub

end ForwardIntake
