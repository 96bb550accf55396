import ForwardIntake.Text.Quoted

/-!
# Listen addresses

A listen address names a transport and an endpoint, as in `tcp://127.0.0.1:24224` or
`unix:///var/run/fluent.sock`.  The endpoint is not empty and has one line.
-/

namespace ForwardIntake

/-- A transport of byte streams. -/
inductive Transport where
  | tcp
  | unix
  deriving DecidableEq, Repr

namespace Transport

/-- The scheme of addresses of the transport. -/
def scheme : Transport → String
  | .tcp => "tcp"
  | .unix => "unix"

/-- What addresses of the transport begin with. -/
def lead (t : Transport) : String :=
  t.scheme ++ "://"

end Transport

/-- A listen address. -/
structure ListenAddress where
  transport : Transport
  /-- A host and a port, or the path of a socket. -/
  endpoint : String
  deriving DecidableEq, Repr

namespace ListenAddress

/-- What remains of a text behind its first part. -/
def behind? : List Char → List Char → Option (List Char)
  | [], text => some text
  | _ :: _, [] => none
  | c :: part, d :: text => if c = d then behind? part text else none

/-- The transport and the endpoint that a text names, whatever the endpoint is. -/
def split? (text : String) : Option ListenAddress :=
  let after (t : Transport) : Option ListenAddress :=
    (behind? t.lead.toList text.toList).map fun rest => ⟨t, String.ofList rest⟩
  (after .tcp).or (after .unix)

/-- The address that a text is. -/
def parse? (text : String) : Option ListenAddress :=
  (split? text).filter fun a => !a.endpoint.toList.isEmpty && !a.endpoint.toList.contains '\n'

/-- The text of an address. -/
def toText (a : ListenAddress) : String :=
  a.transport.lead ++ a.endpoint

/-- A text has another one in front if and only if what is found behind it is the rest. -/
@[simp]
theorem behind?_eq_some_iff {part text rest : List Char} :
    behind? part text = some rest ↔ text = part ++ rest := by
  induction part generalizing text with
  | nil => rw [behind?, Option.some.injEq, List.nil_append]
  | cons c part ih =>
    cases text with
    | nil => simp [behind?]
    | cons d text =>
      rw [behind?, List.cons_append, List.cons.injEq, ← ih]
      split
      next h => rw [h, eq_self, true_and]
      next h => simp [Ne.symm h]

/-- An address stands for its own text. -/
theorem toText_of_parse? {text : String} {a : ListenAddress} (h : parse? text = some a) :
    a.toText = text := by
  rw [parse?, Option.filter_eq_some_iff] at h
  have split := h.1
  simp only [split?, Option.or_eq_some_iff, Option.map_eq_some_iff] at split
  rcases split with ⟨rest, behind, rfl⟩ | ⟨-, rest, behind, rfl⟩
  all_goals
    have whole := behind?_eq_some_iff.1 behind
    apply String.toList_injective
    simp only [toText, String.toList_append, String.toList_ofList, whole]

end ListenAddress

end ForwardIntake
