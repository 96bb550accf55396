/-!
# I/O errors

What a stream or a writer reports when it fails: a kind and a text.  After an error of a temporary
kind the stream can still be used.
-/

namespace ForwardIntake

/-- The kinds of I/O error. -/
inductive IoErrorKind where
  | notFound
  | permissionDenied
  | connectionRefused
  | connectionReset
  | connectionAborted
  | hostUnreachable
  | networkUnreachable
  | networkDown
  | notConnected
  | addrInUse
  | addrNotAvailable
  | brokenPipe
  | alreadyExists
  | wouldBlock
  | invalidInput
  | invalidData
  | timedOut
  | writeZero
  | storageFull
  | interrupted
  | unsupported
  | unexpectedEof
  | outOfMemory
  /-- Any other kind. -/
  | other
  deriving DecidableEq, Repr, Inhabited

namespace IoErrorKind

/-- Whether the stream can still be read after an error of this kind. -/
def isTemporary : IoErrorKind → Bool
  | .interrupted => true
  | .wouldBlock => true
  | .timedOut => true
  | _ => false

end IoErrorKind

/-- An I/O error. -/
structure IoError where
  kind : IoErrorKind
  text : String
  deriving DecidableEq, Repr, Inhabited

namespace IoError

/-- Whether the stream can still be read after the error. -/
def isTemporary (e : IoError) : Bool :=
  e.kind.isTemporary

/-- The text of an error. -/
def message (e : IoError) : String :=
  "I/O error: " ++ e.text

end IoError

end ForwardIntake
