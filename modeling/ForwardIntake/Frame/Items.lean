import ForwardIntake.Frame.Basic

/-!
# Walking over MessagePack

A walk over MessagePack builds no value.  It keeps the position that it has reached and the number
of items that are still owed there: one at first, and as many more as each container announces.
Payloads are stepped over by their length, also when they lie beyond the end of the buffer; so the
length of a message is often known before it has arrived.
-/

namespace ForwardIntake

namespace Frame

/-! ### Markers -/

/-- What a length on the wire counts. -/
inductive Measure where
  | bytes
  | items
  /-- Two items, a key and its value. -/
  | pairs
  deriving DecidableEq, Repr

/-- How an item goes on behind its marker. -/
inductive Form where
  /-- By a number of bytes. -/
  | fixed (bytes : Nat)
  /-- By a number of items. -/
  | container (items : Nat)
  /-- By a length of `width` bytes, `extra` further bytes, and what the length counts. -/
  | sized (width extra : Nat) (measure : Measure)
  /-- The marker is never used. -/
  | reserved
  deriving DecidableEq, Repr

/-- The form of the items with a given marker. -/
def form (marker : Nat) : Form :=
  if marker < 0x80 then .fixed 0
  else if marker < 0x90 then .container (2 * (marker - 0x80))
  else if marker < 0xA0 then .container (marker - 0x90)
  else if marker < 0xC0 then .fixed (marker - 0xA0)
  else match marker with
    | 0xC0 => .fixed 0
    | 0xC1 => .reserved
    | 0xC2 => .fixed 0
    | 0xC3 => .fixed 0
    | 0xC4 => .sized 1 0 .bytes
    | 0xC5 => .sized 2 0 .bytes
    | 0xC6 => .sized 4 0 .bytes
    | 0xC7 => .sized 1 1 .bytes
    | 0xC8 => .sized 2 1 .bytes
    | 0xC9 => .sized 4 1 .bytes
    | 0xCA => .fixed 4
    | 0xCB => .fixed 8
    | 0xCC => .fixed 1
    | 0xCD => .fixed 2
    | 0xCE => .fixed 4
    | 0xCF => .fixed 8
    | 0xD0 => .fixed 1
    | 0xD1 => .fixed 2
    | 0xD2 => .fixed 4
    | 0xD3 => .fixed 8
    | 0xD4 => .fixed 2
    | 0xD5 => .fixed 3
    | 0xD6 => .fixed 5
    | 0xD7 => .fixed 9
    | 0xD8 => .fixed 17
    | 0xD9 => .sized 1 0 .bytes
    | 0xDA => .sized 2 0 .bytes
    | 0xDB => .sized 4 0 .bytes
    | 0xDC => .sized 2 0 .items
    | 0xDD => .sized 4 0 .items
    | 0xDE => .sized 2 0 .pairs
    | 0xDF => .sized 4 0 .pairs
    | _ => .fixed 0

/-! ### Items -/

/-- What the bytes at an item say about it. -/
inductive Item where
  /-- The item takes `bytes` bytes behind its marker, and `items` further items follow. -/
  | known (bytes items : Nat)
  /-- The marker and its length take `length` bytes, and they are not all there. -/
  | header (length : Nat)
  /-- The marker is never used. -/
  | reserved
  deriving DecidableEq, Repr

/-- The item with the given marker, `rest` being the bytes behind it. -/
def item (marker : UInt8) (rest : Bytes) : Item :=
  match form marker.toNat with
  | .fixed bytes => .known bytes 0
  | .container items => .known 0 items
  | .reserved => .reserved
  | .sized width extra measure =>
    match Bytes.split? (width + extra) rest with
    | none => .header (1 + width + extra)
    | some (header, _) =>
      let n := Bytes.toNat (header.take width)
      match measure with
      | .bytes => .known (width + extra + n) 0
      | .items => .known (width + extra) n
      | .pairs => .known (width + extra) (2 * n)

/-- How far a walk over items has come. -/
structure ItemWalk where
  /-- The position of the next item. -/
  pos : Nat
  /-- The number of items that are still owed. -/
  pending : Nat
  deriving DecidableEq, Repr

/-- Goes on with a walk in a buffer of `size` bytes, `rest` being those behind the position. -/
def ItemWalk.advance (size : Nat) (pos pending : Nat) (rest : Bytes) : Frame × ItemWalk :=
  if pending = 0 then
    (if size < pos then .incomplete pos else .complete pos, ⟨pos, 0⟩)
  else
    match rest with
    | [] => (.incomplete (satAdd pos 1), ⟨pos, pending⟩)
    | marker :: tail =>
      match item marker tail with
      | .known bytes items =>
        ItemWalk.advance size (satAdd pos (1 + bytes)) (satAdd (pending - 1) items)
          (tail.drop bytes)
      | .header length => (.incomplete (satAdd pos length), ⟨pos, pending⟩)
      | .reserved => (.invalid, ⟨pos, pending⟩)
termination_by rest.length
decreasing_by simp only [List.length_drop, List.length_cons]; omega

end Frame

end ForwardIntake
