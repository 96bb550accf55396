import ForwardIntake.Bytes
import Mathlib

/-!
# The format of MessagePack

What is an item of MessagePack, said as the format has it and without a way of reading one.  An item
opens with a marker.  Some markers stand alone (`Bare`), others are followed by a length (`Sized`);
then comes the payload, and then come the items that lie in the item (`Opens`, `IsItem`).  The
members of one family of markers differ by the widths of their words, which are powers of two.

Nothing is asked of the payload of a text or of the keys of a map, and items may lie inside one
another to any depth.  One marker belongs to no item, so a byte string in which it stands where an
item has to begin (`LeadsIn`) is the beginning of no item at all.
-/

namespace ForwardIntake

namespace MessagePack

/-! ### Markers -/

/-- A marker without a length, how many bytes of payload it announces, and how many items. -/
inductive Bare : Nat → Nat → Nat → Prop where
  | positive {n : Nat} (h : n < 0x80) : Bare n 0 0
  | map {n : Nat} (h : n < 0x10) : Bare (n + 0x80) 0 (2 * n)
  | array {n : Nat} (h : n < 0x10) : Bare (n + 0x90) 0 n
  | text {n : Nat} (h : n < 0x20) : Bare (n + 0xA0) n 0
  | nil : Bare 0xC0 0 0
  | boolean {n : Nat} (h : n < 2) : Bare (n + 0xC2) 0 0
  | float {k : Nat} (h : k < 2) : Bare (k + 0xCA) (2 ^ (k + 2)) 0
  | unsigned {k : Nat} (h : k < 4) : Bare (k + 0xCC) (2 ^ k) 0
  | signed {k : Nat} (h : k < 4) : Bare (k + 0xD0) (2 ^ k) 0
  /-- The type of the extension, and its data. -/
  | extension {k : Nat} (h : k < 5) : Bare (k + 0xD4) (1 + 2 ^ k) 0
  | negative {n : Nat} (h : n < 0x20) : Bare (n + 0xE0) 0 0

/-- A marker with a length behind it: the width of the length and the length, how many bytes of
payload they announce, and how many items. -/
inductive Sized : Nat → Nat → Nat → Nat → Nat → Prop where
  | binary {k n : Nat} (h : k < 3) : Sized (k + 0xC4) (2 ^ k) n n 0
  /-- The type of the extension, and its data. -/
  | extension {k n : Nat} (h : k < 3) : Sized (k + 0xC7) (2 ^ k) n (1 + n) 0
  | text {k n : Nat} (h : k < 3) : Sized (k + 0xD9) (2 ^ k) n n 0
  | array {k n : Nat} (h : k < 2) : Sized (k + 0xDC) (2 ^ (k + 1)) n 0 n
  | map {k n : Nat} (h : k < 2) : Sized (k + 0xDE) (2 ^ (k + 1)) n 0 (2 * n)

/-- The marker that belongs to no item. -/
def unused : UInt8 :=
  0xC1

/-! ### Items -/

/-- What an item opens with, up to the end of its payload, and how many items lie in it. -/
inductive Opens : Bytes → Nat → Prop where
  | bare {marker items : Nat} {payload : Bytes} (h : Bare marker payload.length items) :
    Opens (.ofNat marker :: payload) items
  | sized {marker items : Nat} {length payload : Bytes}
    (h : Sized marker length.length (Bytes.toNat length) payload.length items) :
    Opens (.ofNat marker :: (length ++ payload)) items

/-- The bytes are one item. -/
inductive IsItem : Bytes → Prop where
  | mk {opening : Bytes} {items : List Bytes} (opens : Opens opening items.length)
    (inside : ∀ item ∈ items, IsItem item) : IsItem (opening ++ items.flatten)

/-- Behind the bytes an item has to begin, and each item in them is complete, but for those in which
that one lies. -/
inductive LeadsIn : Bytes → Prop where
  | outermost : LeadsIn []
  | inside {opening front : Bytes} {items : List Bytes} {count : Nat} (opens : Opens opening count)
    (complete : ∀ item ∈ items, IsItem item) (owed : items.length < count) (leads : LeadsIn front) :
    LeadsIn (opening ++ items.flatten ++ front)

/-- What opens an item is followed by as many items as it announces.  So at the front of any items
it becomes one of them, together with those that lie in it. -/
theorem Opens.gather {opening : Bytes} {count : Nat} {items : List Bytes} (h : Opens opening count)
    (hitems : ∀ item ∈ items, IsItem item) (hcount : count ≤ items.length) :
    ∃ gathered : List Bytes, gathered.length + count = items.length + 1 ∧
      (∀ item ∈ gathered, IsItem item) ∧ gathered.flatten = opening ++ items.flatten := by
  have hinside : (items.take count).length = count := by
    rw [List.length_take, Nat.min_eq_left hcount]
  have hfirst : IsItem (opening ++ (items.take count).flatten) :=
    .mk (by rwa [hinside]) fun item hmem => hitems item (List.mem_of_mem_take hmem)
  refine ⟨(opening ++ (items.take count).flatten) :: items.drop count, ?_, ?_, ?_⟩
  · rw [List.length_cons, List.length_drop]
    omega
  · refine List.forall_mem_cons.2 ⟨hfirst, ?_⟩
    intro item hmem
    exact hitems item (List.mem_of_mem_drop hmem)
  · rw [List.flatten_cons, List.append_assoc, ← List.flatten_append, List.take_append_drop]

end MessagePack

end ForwardIntake
