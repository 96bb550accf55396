/-!
# The registry of live clients

Every client is entered under an id when its session is made and taken out when the session ends.
Each entry carries a token, and a client is shut down by cancelling its token; the session notices
before its next read.  A sweep cancels the tokens of all entries and takes none of them out.

Under one id there is at most one entry: entering a client under an id in use replaces the entry,
and taking out an id takes out whichever entry it has.
-/

namespace ForwardIntake

/-- Identifies a client. -/
abbrev ConnectionId := UInt64

/-- Tells one client that it is shut down. -/
structure Token where
  serial : Nat
  deriving DecidableEq, Repr, Inhabited

/-- An entry of the registry. -/
structure Handle where
  id : ConnectionId
  /-- The address of the client. -/
  peer : String
  token : Token
  deriving DecidableEq, Repr, Inhabited

/-- The live clients, and the ids and tokens given out so far. -/
structure Registry where
  next : ConnectionId
  /-- The entries, no two under one id. -/
  live : List Handle
  /-- How many tokens were issued. -/
  issued : Nat
  cancelled : List Token
  deriving Repr, Inhabited

namespace Registry

/-- A registry without clients. -/
def empty : Registry :=
  ⟨0, [], 0, []⟩

/-- Gives out an id that was not given out before, as long as there are any. -/
def allocate (r : Registry) : ConnectionId × Registry :=
  (r.next, { r with next := r.next + 1 })

/-- Issues a token that was not issued before. -/
def issue (r : Registry) : Token × Registry :=
  (⟨r.issued⟩, { r with issued := r.issued + 1 })

/-- Takes out the entry under an id. -/
def deregister (id : ConnectionId) (r : Registry) : Registry :=
  { r with live := r.live.filter fun handle => handle.id != id }

/-- Enters a client, in the place of any entry under its id. -/
def register (handle : Handle) (r : Registry) : Registry :=
  { r with live := (r.live.filter fun h => h.id != handle.id) ++ [handle] }

/-- The entry under an id. -/
def find? (id : ConnectionId) (r : Registry) : Option Handle :=
  r.live.find? fun handle => handle.id == id

/-- Whether there is an entry under an id. -/
def contains (id : ConnectionId) (r : Registry) : Bool :=
  r.live.any fun handle => handle.id == id

/-- The number of live clients. -/
def size (r : Registry) : Nat :=
  r.live.length

/-- Whether no client is live. -/
def isEmpty (r : Registry) : Bool :=
  r.live.isEmpty

/-- Cancels a token. -/
def cancel (token : Token) (r : Registry) : Registry :=
  { r with cancelled := token :: r.cancelled }

/-- Whether a token is cancelled. -/
def isCancelled (token : Token) (r : Registry) : Bool :=
  r.cancelled.contains token

/-- Shuts down every live client, and says how many there are. -/
def shutdownAll (r : Registry) : Nat × Registry :=
  (r.live.length, { r with cancelled := r.live.map (·.token) ++ r.cancelled })

section Fields

variable (handle : Handle) (id : ConnectionId) (token other : Token) (r : Registry)

@[simp] theorem isCancelled_allocate : r.allocate.2.isCancelled token = r.isCancelled token :=
  rfl

@[simp, grind =] theorem isCancelled_register :
    (r.register handle).isCancelled token = r.isCancelled token :=
  rfl

@[simp, grind =] theorem isCancelled_deregister :
    (r.deregister id).isCancelled token = r.isCancelled token :=
  rfl

@[simp, grind =] theorem isCancelled_cancel :
    (r.cancel token).isCancelled other = (other == token || r.isCancelled other) :=
  List.contains_cons

end Fields

/-! ### Entries -/

@[simp, grind =] theorem find?_register_self (handle : Handle) (r : Registry) :
    (r.register handle).find? handle.id = some handle := by
  have none_left : (r.live.filter fun h => h.id != handle.id).find?
      (fun h => h.id == handle.id) = none := by
    rw [List.find?_eq_none]
    intro h hmem
    simpa using (List.mem_filter.1 hmem).2
  simp [find?, register, List.find?_append, none_left]

/-- Entering a client leaves the others. -/
@[grind =] theorem find?_register_of_ne {handle : Handle} {id : ConnectionId} (ne : handle.id ≠ id)
    (r : Registry) : (r.register handle).find? id = r.find? id := by
  have other : (handle.id == id) = false := beq_eq_false_iff_ne.2 ne
  simp only [find?, register, List.find?_append, List.find?_cons, other, List.find?_nil,
    Option.or_none, List.find?_filter]
  congr 1
  funext h
  by_cases e : h.id = id <;> simp [e, ne.symm]

@[simp, grind =] theorem find?_deregister_self (id : ConnectionId) (r : Registry) :
    (r.deregister id).find? id = none := by
  rw [find?, List.find?_eq_none]
  intro h hmem
  simpa using (List.mem_filter.1 hmem).2

@[grind =] theorem find?_deregister_of_ne {id other : ConnectionId} (ne : other ≠ id)
    (r : Registry) : (r.deregister id).find? other = r.find? other := by
  simp only [find?, deregister, List.find?_filter]
  congr 1
  funext h
  by_cases e : h.id = other <;> simp [e, ne]

/-- An id is in the registry if and only if a lookup finds it. -/
theorem contains_eq_isSome_find? (id : ConnectionId) (r : Registry) :
    r.contains id = (r.find? id).isSome := by
  simp [contains, find?, List.isSome_find?]

/-- A sweep cancels the token of every live client. -/
theorem isCancelled_shutdownAll {r : Registry} {handle : Handle} (h : handle ∈ r.live) :
    r.shutdownAll.2.isCancelled handle.token = true := by
  simp only [isCancelled, shutdownAll, List.contains_eq_mem, decide_eq_true_eq, List.mem_append]
  exact .inl (List.mem_map_of_mem h)

end Registry

end ForwardIntake
