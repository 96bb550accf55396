import ForwardIntake.Proofs.Connection.Membership
import Mathlib

/-!
# Guards

Whoever enters a client is given a guard.  When the guard is dropped, the entry under its id is
taken out, whichever client it is of.  `Guarded` is a registry with the guards that are held, and
its actions are all that may be done with a registry, in any order and under any ids: clients may be
entered under an id in use, and a guard may outlive the entry that it was given for.

Of all that was done under an id only the last thing counts (`find?_of_run`), and a token is
cancelled from the first moment on at which its own client is shut down or a sweep meets an entry
with it (`isCancelled_iff_of_run`).  Where no id is used twice, each entry lives and dies with its
own guard (`paired_of_run`).
-/

namespace ForwardIntake

namespace Registry

variable {r : Registry} {id : ConnectionId} {handle : Handle}

/-! ### Entries and ids -/

/-- With distinct ids a lookup finds what is in the registry. -/
private theorem find?_eq_some_iff_mem (h : (r.live.map (·.id)).Nodup) :
    r.find? id = some handle ↔ handle ∈ r.live ∧ handle.id = id := by
  constructor
  · intro hfind
    have hid := List.find?_some hfind
    exact ⟨List.mem_of_find?_eq_some hfind, beq_iff_eq.1 hid⟩
  · rintro ⟨hmem, rfl⟩
    have hsome : (r.find? handle.id).isSome = true :=
      List.find?_isSome.2 ⟨handle, hmem, beq_self_eq_true _⟩
    obtain ⟨other, hother⟩ := Option.isSome_iff_exists.1 hsome
    have hid := List.find?_some hother
    rw [hother, List.inj_on_of_nodup_map h (List.mem_of_find?_eq_some hother) hmem
      (beq_iff_eq.1 hid)]

/-- With distinct ids the size counts them. -/
private theorem size_eq_ncard (h : (r.live.map (·.id)).Nodup) :
    r.size = {id | r.contains id = true}.ncard := by
  have hids : {id | r.contains id = true} = ((r.live.map (·.id)).toFinset : Set ConnectionId) := by
    ext id
    simp [contains]
  rw [hids, Set.ncard_coe_finset, List.toFinset_card_of_nodup h, List.length_map, size]

/-- The registry is empty if and only if no id is in it. -/
private theorem isEmpty_iff (r : Registry) : r.isEmpty = true ↔ ∀ id, r.contains id = false := by
  rw [isEmpty, List.isEmpty_iff]
  constructor
  · intro hlive id
    rw [contains, hlive, List.any_nil]
  · intro hnone
    refine List.eq_nil_iff_forall_not_mem.2 fun handle hmem => ?_
    have hthere : r.contains handle.id = true :=
      List.any_eq_true.2 ⟨handle, hmem, beq_self_eq_true _⟩
    rw [hnone] at hthere
    cases hthere

end Registry

/-- What is given for the entry of a client. -/
structure Guard where
  /-- How many clients were entered before. -/
  serial : Nat
  id : ConnectionId
  deriving DecidableEq, Repr

/-- A registry and the guards that are held. -/
structure Guarded where
  registry : Registry
  /-- The ids given out so far. -/
  ids : List ConnectionId
  /-- How many clients were entered so far. -/
  entered : Nat
  /-- The guards that were not dropped yet. -/
  guards : List Guard
  deriving Repr

namespace Guarded

/-- An empty registry of which no guard was given. -/
def new : Guarded :=
  ⟨.empty, [], 0, []⟩

/-- What may be done with a registry. -/
inductive Action where
  /-- Takes the next id. -/
  | allocate
  | register (handle : Handle)
  /-- Drops a guard. -/
  | drop (guard : Guard)
  /-- Shuts down a client, whether it is in the registry or not. -/
  | shutdown (handle : Handle)
  | shutdownAll
  deriving DecidableEq, Repr

/-- The registry and its guards after an action.  Only a guard that is held can be dropped. -/
def act (g : Guarded) : Action → Option Guarded
  | .allocate =>
    let (id, registry) := g.registry.allocate
    some { g with registry, ids := g.ids ++ [id] }
  | .register handle =>
    some { g with
      registry := g.registry.register handle
      entered := g.entered + 1
      guards := g.guards ++ [⟨g.entered, handle.id⟩] }
  | .drop guard =>
    if guard ∈ g.guards then
      some { g with
        registry := g.registry.deregister guard.id
        guards := g.guards.filter (· != guard) }
    else none
  | .shutdown handle => some { g with registry := g.registry.cancel handle.token }
  | .shutdownAll => some { g with registry := g.registry.shutdownAll.2 }

namespace Action

/-- What an action makes of the registry. -/
def effect (r : Registry) : Action → Registry
  | .allocate => r.allocate.2
  | .register handle => r.register handle
  | .drop guard => r.deregister guard.id
  | .shutdown handle => r.cancel handle.token
  | .shutdownAll => r.shutdownAll.2

/-- The entry that an action makes. -/
def entered? : Action → Option Handle
  | .register handle => some handle
  | _ => none

/-- Whether an action makes an entry under an id or takes one out. -/
def concerns (id : ConnectionId) : Action → Bool
  | .register handle => handle.id == id
  | .drop guard => guard.id == id
  | _ => false

/-- Only a registration enters a handle. -/
private theorem entered?_eq_some_iff {a : Action} {handle : Handle} :
    a.entered? = some handle ↔ a = .register handle := by
  cases a <;> simp [entered?]

end Action

/-- The last action that makes an entry under an id or takes one out. -/
def latest (id : ConnectionId) (actions : List Action) : Option Action :=
  (actions.filter (·.concerns id)).getLast?

/-- The entries that were made, in their order. -/
def registrations (actions : List Action) : List Handle :=
  actions.filterMap Action.entered?

/-- The guards that were given, in their order. -/
def given (actions : List Action) : List Guard :=
  (registrations actions).mapIdx fun k handle => ⟨k, handle.id⟩

/-- An action behind others cancels a token. -/
def Cancels (token : Token) (before : List Action) (a : Action) : Prop :=
  (∃ handle, a = .shutdown handle ∧ handle.token = token) ∨
    a = .shutdownAll ∧
      ∃ id handle, latest id before = some (.register handle) ∧ handle.token = token

variable {g g' : Guarded} {a : Action} {actions : List Action} {id : ConnectionId}
  {handle : Handle} {guard : Guard} {token : Token}

/-! ### Single actions -/

/-- A guard is dropped if and only if it is held. -/
private theorem act_drop_eq_some_iff : g.act (.drop guard) = some g' ↔
    guard ∈ g.guards ∧
      { g with
        registry := g.registry.deregister guard.id
        guards := g.guards.filter (· != guard) } = g' := by
  rw [act, Option.ite_none_right_eq_some, Option.some.injEq]

/-- What an action does to the registry. -/
private theorem registry_of_act (h : g.act a = some g') : g'.registry = a.effect g.registry := by
  cases a with
  | drop guard =>
    obtain ⟨-, rfl⟩ := act_drop_eq_some_iff.1 h
    rfl
  | allocate | register | shutdown | shutdownAll =>
    obtain rfl := Option.some.inj h
    rfl

/-- What a lookup finds after an action. -/
private theorem find?_effect (a : Action) (r : Registry) (id : ConnectionId) :
    (a.effect r).find? id = if a.concerns id then a.entered? else r.find? id := by
  cases a with
  | register handle => grind [Action.effect, Action.concerns, Action.entered?]
  | drop guard => grind [Action.effect, Action.concerns, Action.entered?]
  | allocate | shutdown | shutdownAll => rfl

/-- Ids stay distinct. -/
private theorem nodup_effect {r : Registry} (a : Action) (h : (r.live.map (·.id)).Nodup) :
    ((a.effect r).live.map (·.id)).Nodup := by
  cases a with
  | register handle => exact Registry.nodup_register handle h
  | drop guard => exact Registry.nodup_deregister guard.id h
  | allocate | shutdown | shutdownAll => exact h

/-- What an action cancels. -/
private theorem isCancelled_effect (a : Action) (r : Registry) (token : Token) :
    (a.effect r).isCancelled token = true ↔ r.isCancelled token = true ∨
      (∃ handle, a = .shutdown handle ∧ handle.token = token) ∨
      a = .shutdownAll ∧ ∃ handle ∈ r.live, handle.token = token := by
  cases a with
  | shutdown handle => simp [Action.effect, or_comm, @eq_comm _ token]
  | shutdownAll =>
    simp [Action.effect, Registry.isCancelled, Registry.shutdownAll, or_comm]
  | allocate | register | drop =>
    simp [Action.effect]

/-! ### The last word under an id -/

/-- The last action is the latest for the id that it concerns. -/
private theorem latest_concat (id : ConnectionId) (actions : List Action) (a : Action) :
    latest id (actions ++ [a]) = if a.concerns id then some a else latest id actions := by
  rw [latest, List.filter_append]
  split
  next h => rw [List.filter_cons_of_pos h, List.filter_nil, List.getLast?_concat]
  next h => rw [List.filter_cons_of_neg h, List.filter_nil, List.append_nil, latest]

/-- **Of all that was done under an id only the last thing counts.** -/
private theorem find?_of_run (h : actions.foldlM act .new = some g) (id : ConnectionId) :
    g.registry.find? id = (latest id actions).bind Action.entered? := by
  induction h using run_induction with
  | start => rfl
  | step actions mid a g hmid ih hact =>
    rw [registry_of_act hact, find?_effect, latest_concat]
    split
    · rfl
    · exact ih

/-- A lookup finds a handle if and only if the latest action for the id registered it. -/
private theorem find?_eq_some_iff_latest (h : actions.foldlM act .new = some g) :
    g.registry.find? id = some handle ↔ latest id actions = some (.register handle) := by
  rw [find?_of_run h, Option.bind_eq_some_iff]
  constructor
  · rintro ⟨a, hlatest, hentered⟩
    rwa [← Action.entered?_eq_some_iff.1 hentered]
  · intro hlatest
    exact ⟨_, hlatest, rfl⟩

/-- An id is in the registry if and only if the latest action for it is a registration. -/
private theorem contains_iff_latest (h : actions.foldlM act .new = some g) :
    g.registry.contains id = true ↔ ∃ handle, latest id actions = some (.register handle) := by
  rw [Registry.contains_eq_isSome_find?, Option.isSome_iff_exists]
  exact exists_congr fun handle => find?_eq_some_iff_latest h

/-! ### Tokens -/

private theorem nodup_of_run (h : actions.foldlM act .new = some g) :
    (g.registry.live.map (·.id)).Nodup := by
  induction h using run_induction with
  | start => exact List.nodup_nil
  | step actions mid a g hmid ih hact =>
    rw [registry_of_act hact]
    exact nodup_effect a ih

/-- The tokens in the registry are those of the latest registrations. -/
private theorem exists_mem_live_iff (h : actions.foldlM act .new = some g) (token : Token) :
    (∃ handle ∈ g.registry.live, handle.token = token) ↔
      ∃ id handle, latest id actions = some (.register handle) ∧ handle.token = token := by
  have hnodup := nodup_of_run h
  constructor
  · rintro ⟨handle, hmem, htoken⟩
    have hfind := (Registry.find?_eq_some_iff_mem hnodup).2 ⟨hmem, rfl⟩
    exact ⟨handle.id, handle, (find?_eq_some_iff_latest h).1 hfind, htoken⟩
  · rintro ⟨id, handle, hlatest, htoken⟩
    have hfind := (find?_eq_some_iff_latest h).2 hlatest
    exact ⟨handle, ((Registry.find?_eq_some_iff_mem hnodup).1 hfind).1, htoken⟩

/-- A sweep cancels the tokens of the entries, and no others. -/
private theorem isCancelled_sweep_iff (h : actions.foldlM act .new = some g) (token : Token) :
    g.registry.shutdownAll.2.isCancelled token = true ↔ g.registry.isCancelled token = true ∨
      ∃ id handle, g.registry.find? id = some handle ∧ handle.token = token := by
  have hsweep : g.registry.shutdownAll.2.isCancelled token = true ↔ _ :=
    isCancelled_effect .shutdownAll g.registry token
  rw [hsweep, exists_mem_live_iff h]
  simp only [find?_eq_some_iff_latest h, reduceCtorEq, false_and, exists_false, false_or, true_and]

/-- **A token is cancelled if some action has cancelled it**, however long ago. -/
private theorem isCancelled_iff_of_run (h : actions.foldlM act .new = some g) (token : Token) :
    g.registry.isCancelled token = true ↔
      ∃ before a, before ++ [a] <+: actions ∧ Cancels token before a := by
  induction h using run_induction with
  | start =>
    constructor
    · intro hcancelled
      cases hcancelled
    · rintro ⟨before, a, hprefix, -⟩
      exact absurd (List.prefix_nil.1 hprefix) (List.append_ne_nil_of_right_ne_nil _ (by simp))
  | step actions mid a g hmid ih hact =>
    rw [registry_of_act hact, isCancelled_effect, ih, exists_mem_live_iff hmid]
    constructor
    · rintro (⟨before, b, hprefix, hcancels⟩ | hlast)
      · exact ⟨before, b, hprefix.trans (List.prefix_append _ _), hcancels⟩
      · exact ⟨actions, a, List.prefix_rfl, hlast⟩
    · rintro ⟨before, b, hprefix, hcancels⟩
      rcases List.prefix_concat_iff.1 hprefix with heq | hbefore
      · obtain ⟨rfl, rfl⟩ := List.append_inj' heq rfl |>.imp_right List.singleton_inj.1
        exact .inr hcancels
      · exact .inl ⟨before, b, hbefore, hcancels⟩

/-! ### Guards and their entries -/

/-- A registration is listed last. -/
private theorem registrations_register (actions : List Action) (handle : Handle) :
    registrations (actions ++ [.register handle]) = registrations actions ++ [handle] :=
  List.filterMap_append

private theorem registrations_of_none (actions : List Action) (h : a.entered? = none) :
    registrations (actions ++ [a]) = registrations actions := by
  rw [registrations, List.filterMap_append, List.filterMap_cons_none h, List.filterMap_nil,
    List.append_nil, registrations]

private theorem given_of_none (actions : List Action) (h : a.entered? = none) :
    given (actions ++ [a]) = given actions := by
  rw [given, registrations_of_none actions h, given]

/-- A guard is given for each registration, with its serial number and its id. -/
private theorem mem_given_iff : guard ∈ given actions ↔
    ∃ handle, (registrations actions)[guard.serial]? = some handle ∧ handle.id = guard.id := by
  rw [given, List.mem_mapIdx]
  constructor
  · rintro ⟨k, hk, rfl⟩
    exact ⟨_, List.getElem?_eq_getElem hk, rfl⟩
  · rintro ⟨handle, hat, hid⟩
    obtain ⟨hk, rfl⟩ := List.getElem?_eq_some_iff.1 hat
    exact ⟨guard.serial, hk, by rw [hid]⟩

/-- The guards that are held are those given and not dropped, and no others were dropped. -/
structure Accounted (actions : List Action) (g : Guarded) : Prop where
  entered : g.entered = (registrations actions).length
  held : ∀ guard, guard ∈ g.guards ↔ guard ∈ given actions ∧ .drop guard ∉ actions
  dropped : ∀ guard, .drop guard ∈ actions → guard ∈ given actions

/-- A registration accounts for its guard. -/
private theorem Accounted.register (hg : Accounted actions g)
    (h : g.act (.register handle) = some g') : Accounted (actions ++ [.register handle]) g' := by
  obtain rfl := Option.some.inj h
  have hgiven : given (actions ++ [.register handle]) =
      given actions ++ [⟨g.entered, handle.id⟩] := by
    rw [given, registrations_register, List.mapIdx_concat, hg.entered, given]
  have hdrop (guard : Guard) :
      .drop guard ∈ actions ++ [.register handle] ↔ .drop guard ∈ actions := by simp
  -- the new guard has a serial of its own
  have hfresh : (⟨g.entered, handle.id⟩ : Guard) ∉ given actions := by
    intro hmem
    obtain ⟨other, hat, -⟩ := mem_given_iff.1 hmem
    have hlt := (List.getElem?_eq_some_iff.1 hat).1
    exact hlt.ne hg.entered
  constructor
  · rw [registrations_register, List.length_append, List.length_singleton, hg.entered]
  · intro guard
    rw [hdrop, hgiven, List.mem_append, List.mem_append, List.mem_singleton, hg.held]
    constructor
    · rintro (⟨hmem, hnot⟩ | rfl)
      · exact ⟨.inl hmem, hnot⟩
      · exact ⟨.inr rfl, fun hdropped => hfresh (hg.dropped _ hdropped)⟩
    · rintro ⟨hmem | rfl, hnot⟩
      · exact .inl ⟨hmem, hnot⟩
      · exact .inr rfl
  · intro guard hdropped
    rw [hgiven]
    exact List.mem_append_left _ (hg.dropped guard ((hdrop guard).1 hdropped))

/-- A dropped guard is accounted for. -/
private theorem Accounted.drop (hg : Accounted actions g) (h : g.act (.drop guard) = some g') :
    Accounted (actions ++ [.drop guard]) g' := by
  obtain ⟨hheld, rfl⟩ := act_drop_eq_some_iff.1 h
  have hdrop (other : Guard) :
      .drop other ∈ actions ++ [.drop guard] ↔ .drop other ∈ actions ∨ other = guard := by simp
  constructor
  · rw [registrations_of_none actions rfl, hg.entered]
  · intro other
    rw [given_of_none actions rfl, hdrop, not_or, ← and_assoc, ← hg.held, List.mem_filter,
      bne_iff_ne]
  · intro other hdropped
    rw [given_of_none actions rfl]
    rcases (hdrop other).1 hdropped with hbefore | rfl
    · exact hg.dropped other hbefore
    · exact ((hg.held other).1 hheld).1

/-- What neither gives a guard nor drops one. -/
private theorem Accounted.rest (hg : Accounted actions g) (hnone : a.entered? = none)
    (hdrop : ∀ guard, a ≠ .drop guard) (hentered : g'.entered = g.entered)
    (hguards : g'.guards = g.guards) : Accounted (actions ++ [a]) g' := by
  have hmem (guard : Guard) : .drop guard ∈ actions ++ [a] ↔ .drop guard ∈ actions := by
    simp [(hdrop guard).symm]
  constructor
  · rw [hentered, registrations_of_none actions hnone, hg.entered]
  · intro guard
    rw [hguards, hmem, given_of_none actions hnone, hg.held]
  · intro guard hdropped
    rw [given_of_none actions hnone]
    exact hg.dropped guard ((hmem guard).1 hdropped)

/-- Guards are accounted for in every run. -/
private theorem accounted_of_run (h : actions.foldlM act .new = some g) : Accounted actions g := by
  induction h using run_induction with
  | start =>
    constructor
    · rfl
    · exact fun guard => ⟨fun hmem => absurd hmem List.not_mem_nil,
        fun hmem => absurd hmem.1 List.not_mem_nil⟩
    · exact fun guard hdropped => absurd hdropped List.not_mem_nil
  | step actions mid a g hmid ih hact =>
    cases a with
    | register handle => exact ih.register hact
    | drop guard => exact ih.drop hact
    | allocate | shutdown | shutdownAll =>
      obtain rfl := Option.some.inj hact
      exact ih.rest rfl (fun _ => Action.noConfusion) rfl rfl

/-- Each entry stands as long as its own guard is held. -/
def Paired (actions : List Action) (g : Guarded) : Prop :=
  ∀ (k : Nat) (handle : Handle), (registrations actions)[k]? = some handle →
    g.registry.find? handle.id = if ⟨k, handle.id⟩ ∈ g.guards then some handle else none

private theorem Paired.register (hp : Paired actions g) (hg : Accounted actions g)
    (hnew : handle.id ∉ (registrations actions).map (·.id))
    (h : g.act (.register handle) = some g') : Paired (actions ++ [.register handle]) g' := by
  obtain rfl := Option.some.inj h
  intro k other hat
  rw [registrations_register] at hat
  rcases Nat.lt_or_ge k (registrations actions).length with hbefore | hlast
  · rw [List.getElem?_append_left hbefore] at hat
    have hid : handle.id ≠ other.id := by
      intro hid
      exact hnew (hid ▸ List.mem_map_of_mem (List.mem_of_getElem? hat))
    have hserial : (⟨k, other.id⟩ : Guard) ≠ ⟨g.entered, handle.id⟩ := by
      intro heq
      exact hid (congrArg Guard.id heq).symm
    have hmem : ⟨k, other.id⟩ ∈ g.guards ++ [⟨g.entered, handle.id⟩] ↔
        ⟨k, other.id⟩ ∈ g.guards := by
      rw [List.mem_append, List.mem_singleton, or_iff_left hserial]
    rw [Registry.find?_register_of_ne hid, hp k other hat]
    exact if_congr hmem.symm rfl rfl
  · rw [List.getElem?_append_right hlast, List.getElem?_singleton] at hat
    split at hat
    next hk =>
      obtain rfl := Option.some.inj hat
      have hentered : k = g.entered := by
        rw [hg.entered]
        omega
      subst hentered
      rw [if_pos (List.mem_append_right _ (List.mem_singleton_self _))]
      exact Registry.find?_register_self handle _
    next => cases hat

private theorem Paired.drop (hp : Paired actions g) (hg : Accounted actions g)
    (honce : ((registrations actions).map (·.id)).Nodup) (h : g.act (.drop guard) = some g') :
    Paired (actions ++ [.drop guard]) g' := by
  obtain ⟨hheld, rfl⟩ := act_drop_eq_some_iff.1 h
  intro k handle hat
  rw [registrations_of_none actions rfl] at hat
  by_cases hid : handle.id = guard.id
  · -- under the id of the guard only its own entry was ever made
    obtain ⟨own, hown, hsame⟩ := mem_given_iff.1 ((hg.held guard).1 hheld).1
    have hserial : k = guard.serial := by
      refine (List.getElem?_inj ?_ honce).1 ?_
      · rw [List.length_map]
        exact (List.getElem?_eq_some_iff.1 hat).1
      · rw [List.getElem?_map, List.getElem?_map, hat, hown, Option.map_some, Option.map_some,
          hid, hsame]
    subst hserial
    have hgone : ⟨guard.serial, handle.id⟩ ∉ g.guards.filter (· != guard) := by
      intro hmem
      exact bne_iff_ne.1 (List.mem_filter.1 hmem).2 (by rw [hid])
    rw [if_neg hgone, hid]
    exact Registry.find?_deregister_self guard.id _
  · have hother : (⟨k, handle.id⟩ : Guard) ≠ guard := by
      rintro rfl
      exact hid rfl
    have hmem : ⟨k, handle.id⟩ ∈ g.guards.filter (· != guard) ↔ ⟨k, handle.id⟩ ∈ g.guards := by
      rw [List.mem_filter, bne_iff_ne, and_iff_left hother]
    rw [Registry.find?_deregister_of_ne hid, hp k handle hat]
    exact if_congr hmem.symm rfl rfl

/-- **Each entry lives and dies with its own guard**, where no id is used twice. -/
private theorem paired_of_run (h : actions.foldlM act .new = some g)
    (honce : ((registrations actions).map (·.id)).Nodup) : Paired actions g := by
  induction h using run_induction with
  | start => exact fun k handle hat => by cases hat
  | step actions mid a g hmid ih hact =>
    have hmidGuards := accounted_of_run hmid
    cases a with
    | register handle =>
      rw [registrations_register, List.map_append, List.map_singleton, ← List.concat_eq_append,
        List.nodup_concat] at honce
      exact (ih honce.2).register hmidGuards honce.1 hact
    | drop guard =>
      rw [registrations_of_none actions rfl] at honce
      exact (ih honce).drop hmidGuards honce hact
    | allocate | shutdown | shutdownAll =>
      rw [registrations_of_none actions rfl] at honce
      obtain rfl := Option.some.inj hact
      intro k handle hat
      rw [registrations_of_none actions rfl] at hat
      exact ih honce k handle hat

/-! ### Ids -/

/-- Ids are handed out one after the other. -/
private theorem ids_of_run (h : actions.foldlM act .new = some g) :
    g.registry.next = UInt64.ofNat g.ids.length ∧
      g.ids = (List.range g.ids.length).map UInt64.ofNat := by
  induction h using run_induction with
  | start => exact ⟨rfl, rfl⟩
  | step actions mid a g hmid ih hact =>
    cases a with
    | drop guard =>
      obtain ⟨-, rfl⟩ := act_drop_eq_some_iff.1 hact
      exact ih
    | register | shutdown | shutdownAll =>
      obtain rfl := Option.some.inj hact
      exact ih
    | allocate =>
      obtain rfl := Option.some.inj hact
      constructor
      · rw [List.length_append, List.length_singleton, UInt64.ofNat_add, ← ih.1]
        rfl
      · rw [List.length_append, List.length_singleton, List.range_succ, List.map_append,
          ← ih.2, List.map_singleton, ← ih.1]

/-- The ids that are given out are distinct until all of them were given out. -/
private theorem nodup_ids (h : actions.foldlM act .new = some g) (hfew : g.ids.length ≤ 2 ^ 64) :
    g.ids.Nodup := by
  rw [(ids_of_run h).2]
  refine List.Nodup.map_on ?_ List.nodup_range
  intro i hi j hj hij
  rw [List.mem_range] at hi hj
  have hnat := congrArg UInt64.toNat hij
  rwa [UInt64.toNat_ofNat_of_lt' (hi.trans_le hfew),
    UInt64.toNat_ofNat_of_lt' (hj.trans_le hfew)] at hnat

/-! ### What the actions tell -/

private theorem isCancelled_of_run {later : List Action} (h : actions.foldlM act .new = some g)
    (hlater : later.foldlM act g = some g') (hcancelled : g.registry.isCancelled token = true) :
    g'.registry.isCancelled token = true := by
  have hwhole : (actions ++ later).foldlM act .new = some g' := by
    rw [List.foldlM_append, h]
    exact hlater
  obtain ⟨before, a, hprefix, hcancels⟩ := (isCancelled_iff_of_run h token).1 hcancelled
  exact (isCancelled_iff_of_run hwhole token).2
    ⟨before, a, hprefix.trans (List.prefix_append _ _), hcancels⟩

/-- With distinct ids an entry is there until its guard is dropped. -/
private theorem find?_eq_ite_drop (h : actions.foldlM act .new = some g)
    (honce : ((registrations actions).map (·.id)).Nodup) {k : Nat}
    (hat : (registrations actions)[k]? = some handle) :
    g.registry.find? handle.id =
      if .drop ⟨k, handle.id⟩ ∈ actions then none else some handle := by
  have hgiven : ⟨k, handle.id⟩ ∈ given actions := mem_given_iff.2 ⟨handle, hat, rfl⟩
  have hheld := (accounted_of_run h).held ⟨k, handle.id⟩
  rw [and_iff_right hgiven] at hheld
  rw [paired_of_run h honce k handle hat, ← ite_not]
  exact if_congr (not_congr hheld |>.trans not_not) rfl rfl

/-- **Who is live, by what was done.**  Whatever is done with a registry and the guards that it
gives, in any order and under any ids:

* A client is live under an id exactly if the last thing done under this id was to enter it.  The
  size of the registry is the number of the ids at which this is so.
* A sweep counts the entries and cancels exactly their tokens; nobody is taken out, and no guard is
  dropped.
* A token is cancelled exactly if the client of it was shut down or a sweep met an entry with it,
  and whatever is done then it stays so.
* Where no id was used twice, an entry stands exactly until its own guard is dropped.  Ids that were
  given out are distinct as long as there are any left, so this holds where each of them is used
  once. -/
theorem registry_follows_actions (h : actions.foldlM act .new = some g) :
    (∀ id, g.registry.contains id = true ↔
      ∃ handle, latest id actions = some (.register handle)) ∧
    (∀ id handle, g.registry.find? id = some handle ↔
      latest id actions = some (.register handle)) ∧
    g.registry.size = {id | ∃ handle, latest id actions = some (.register handle)}.ncard ∧
    (g.registry.isEmpty = true ↔ ∀ id handle, latest id actions ≠ some (.register handle)) ∧
    (∃ g', g.act .shutdownAll = some g' ∧ g.registry.shutdownAll = (g.registry.size, g'.registry) ∧
      (∀ id, g'.registry.find? id = g.registry.find? id) ∧ g'.guards = g.guards ∧
      ∀ token, g'.registry.isCancelled token = true ↔ g.registry.isCancelled token = true ∨
        ∃ id handle, g.registry.find? id = some handle ∧ handle.token = token) ∧
    (∀ token, g.registry.isCancelled token = true ↔
      ∃ before a, before ++ [a] <+: actions ∧ Cancels token before a) ∧
    (∀ (later : List Action) (g' : Guarded) (token : Token), later.foldlM act g = some g' →
      g.registry.isCancelled token = true → g'.registry.isCancelled token = true) ∧
    (∀ guard, (∃ g', g.act (.drop guard) = some g') ↔
      guard ∈ given actions ∧ .drop guard ∉ actions) ∧
    (((registrations actions).map (·.id)).Nodup →
      ∀ (k : Nat) (handle : Handle), (registrations actions)[k]? = some handle →
        g.registry.find? handle.id =
          if .drop ⟨k, handle.id⟩ ∈ actions then none else some handle) ∧
    (g.ids.length ≤ 2 ^ 64 → ((registrations actions).map (·.id)).Subperm g.ids →
      ((registrations actions).map (·.id)).Nodup) := by
  have hcontains (id : ConnectionId) : g.registry.contains id = true ↔
      ∃ handle, latest id actions = some (.register handle) := contains_iff_latest h
  refine ⟨hcontains, fun id handle => find?_eq_some_iff_latest h, ?_, ?_,
    ⟨_, rfl, rfl, fun _ => rfl, rfl, isCancelled_sweep_iff h⟩, isCancelled_iff_of_run h,
    fun later g' token hlater => isCancelled_of_run h hlater,
    fun guard => ?_, fun honce k handle => find?_eq_ite_drop h honce, fun hfew honce => ?_⟩
  · rw [Registry.size_eq_ncard (nodup_of_run h)]
    simp only [hcontains]
  · rw [Registry.isEmpty_iff]
    refine forall_congr' fun id => ?_
    rw [← Bool.not_eq_true, hcontains, not_exists]
  · rw [← (accounted_of_run h).held guard]
    exact ⟨fun ⟨g', hact⟩ => (act_drop_eq_some_iff.1 hact).1,
      fun hheld => ⟨_, act_drop_eq_some_iff.2 ⟨hheld, rfl⟩⟩⟩
  · obtain ⟨used, hperm, hsublist⟩ := honce
    exact hperm.nodup_iff.1 ((nodup_ids h hfew).sublist hsublist)

/-- Of two clients under one id the second one goes with the guard of the first one, and a sweep
then meets a third client only.  Where the ids are those that were given out, each client goes with
its own guard. -/
theorem registry_follows_actions_shared :
    (∃ g : Guarded, [Action.register ⟨7, "a", ⟨0⟩⟩, .register ⟨7, "b", ⟨1⟩⟩,
        .register ⟨8, "c", ⟨2⟩⟩, .drop ⟨0, 7⟩, .shutdownAll].foldlM act .new = some g ∧
      g.registry.contains 7 = false ∧ ⟨1, 7⟩ ∈ g.guards ∧ g.registry.contains 8 = true ∧
      g.registry.isCancelled ⟨1⟩ = false ∧ g.registry.isCancelled ⟨2⟩ = true) ∧
    ∃ g : Guarded, [Action.allocate, .register ⟨0, "a", ⟨0⟩⟩, .allocate,
        .register ⟨1, "b", ⟨1⟩⟩, .drop ⟨0, 0⟩].foldlM act .new = some g ∧
      g.registry.find? 0 = none ∧ g.registry.find? 1 = some ⟨1, "b", ⟨1⟩⟩ := by
  let shared : List Action := [.register ⟨7, "a", ⟨0⟩⟩, .register ⟨7, "b", ⟨1⟩⟩,
    .register ⟨8, "c", ⟨2⟩⟩, .drop ⟨0, 7⟩, .shutdownAll]
  let own : List Action := [.allocate, .register ⟨0, "a", ⟨0⟩⟩, .allocate,
    .register ⟨1, "b", ⟨1⟩⟩, .drop ⟨0, 0⟩]
  obtain ⟨g, hshared, hguard, hcancelled⟩ : ∃ g : Guarded, shared.foldlM act .new = some g ∧
      ⟨1, 7⟩ ∈ g.guards ∧ g.registry.isCancelled ⟨1⟩ = false :=
    ⟨_, rfl, by decide, rfl⟩
  obtain ⟨g', hown, hids⟩ : ∃ g : Guarded, own.foldlM act .new = some g ∧ g.ids = [0, 1] :=
    ⟨_, rfl, rfl⟩
  obtain ⟨hcontains, -, -, -, -, htokens, -⟩ := registry_follows_actions hshared
  obtain ⟨-, -, -, -, -, -, -, -, hentries, hnodup⟩ := registry_follows_actions hown
  rw [hids] at hnodup
  have honce := hnodup (by decide) (List.Subperm.refl _)
  refine ⟨⟨g, hshared, ?_, hguard, ?_, hcancelled, ?_⟩, g', hown, ?_, ?_⟩
  · rw [← Bool.not_eq_true, hcontains]
    rintro ⟨handle, hlatest⟩
    cases hlatest
  · exact (hcontains 8).2 ⟨⟨8, "c", ⟨2⟩⟩, rfl⟩
  · exact (htokens ⟨2⟩).2
      ⟨shared.dropLast, .shutdownAll, List.prefix_rfl, .inr ⟨rfl, 8, ⟨8, "c", ⟨2⟩⟩, rfl, rfl⟩⟩
  · exact hentries honce 0 ⟨0, "a", ⟨0⟩⟩ rfl
  · exact hentries honce 1 ⟨1, "b", ⟨1⟩⟩ rfl

end Guarded

end ForwardIntake
