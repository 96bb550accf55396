import ForwardIntake.Frame.Basic

/-!
# Walking over JSON

A walk over JSON counts how many brackets and braces are open and keeps track of whether it is
inside a string, and there behind a backslash.  All other syntax is ignored.  The message ends with
the bracket that closes the last open one.
-/

namespace ForwardIntake

namespace Frame

/-- How far a walk over brackets has come. -/
structure BracketWalk where
  /-- The number of bytes seen. -/
  pos : Nat
  /-- The number of open brackets. -/
  depth : Nat
  inString : Bool
  /-- Whether the last byte was the backslash of an escape. -/
  escaped : Bool
  deriving DecidableEq, Repr

namespace BracketWalk

/-- The walk behind one more byte, and whether that byte closed the message. -/
def step (w : BracketWalk) (byte : UInt8) : BracketWalk × Bool :=
  let next := { w with pos := w.pos + 1 }
  if w.inString then
    if w.escaped then ({ next with escaped := false }, false)
    else if byte = 0x5C then ({ next with escaped := true }, false)
    else if byte = 0x22 then ({ next with inString := false }, false)
    else (next, false)
  else if byte = 0x22 then ({ next with inString := true }, false)
  else if byte = 0x7B ∨ byte = 0x5B then ({ next with depth := w.depth + 1 }, false)
  else if byte = 0x7D ∨ byte = 0x5D then
    ({ next with depth := w.depth - 1 }, w.depth - 1 = 0)
  else (next, false)

/-- Goes on with a walk in a buffer of `size` bytes, over those behind its position. -/
def advance (size : Nat) (w : BracketWalk) : Bytes → Frame × BracketWalk
  | [] => (.incomplete (size + 1), w)
  | byte :: rest =>
    match w.step byte with
    | (next, true) => (.complete next.pos, next)
    | (next, false) => advance size next rest

end BracketWalk

end Frame

end ForwardIntake
