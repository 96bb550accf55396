import ForwardIntake.Listen.Address
import ForwardIntake.Listen.HostName
import ForwardIntake.Listen.Ip
import ForwardIntake.Text.Utf8

/-!
# Hosts

What an input finds where it opens its socket: the directories and files of the host, the names that
it knows, and its interfaces.  `Host.bind` opens a socket at an address or says why that is not
possible; a Unix socket stands in a directory as a file of its own.

A host opens sockets at any address of version 4, and at no address of version 6 but the one that
stands for all of them and those that wrap an address of version 4.
-/

namespace ForwardIntake

/-- Why a socket cannot be opened. -/
inductive BindError where
  /-- The endpoint has no port. -/
  | noPort
  /-- The port is no number below 65536. -/
  | badPort
  /-- The name of the host contains a zero byte. -/
  | zeroInHost
  /-- There is no host of that name. -/
  | unknownHost
  /-- The name of the host could not be looked up. -/
  | lookup
  /-- The address is not one of this host. -/
  | notLocal
  /-- No socket can be opened at an address of this kind. -/
  | notBindable
  /-- There is no interface of the given number. -/
  | noInterface
  /-- The path contains a zero byte. -/
  | zeroInPath
  | pathTooLong
  /-- The abstract name is too long. -/
  | nameTooLong
  /-- A directory on the path is missing. -/
  | missing
  /-- The path leads through a file. -/
  | notDirectory
  /-- There is something at the path already. -/
  | inUse
  deriving DecidableEq, Repr

/-- The text of an error. -/
def BindError.message : BindError → String
  | .noPort => "invalid socket address"
  | .badPort => "invalid port value"
  | .zeroInHost => "file name contained an unexpected NUL byte"
  | .unknownHost => "failed to lookup address information: Name or service not known"
  | .lookup => "failed to lookup address information: Temporary failure in name resolution"
  | .notLocal => "Cannot assign requested address (os error 99)"
  | .notBindable => "Invalid argument (os error 22)"
  | .noInterface => "No such device (os error 19)"
  | .zeroInPath => "paths must not contain interior null bytes"
  | .pathTooLong => "path must be shorter than SUN_LEN"
  | .nameTooLong => "abstract socket name must be shorter than SUN_LEN"
  | .missing => "No such file or directory (os error 2)"
  | .notDirectory => "Not a directory (os error 20)"
  | .inUse => "Address already in use (os error 98)"

/-! ### Paths -/

/-- The names on a path. -/
def pathNames (path : String) : List String :=
  (path.splitOn "/").filter (· != "")

/-- The names on all paths that lead to a place, the place itself included. -/
def ancestry (names : List String) : List (List String) :=
  (List.range (names.length + 1)).map names.take

/-- A host. -/
structure Host where
  /-- The directories, each by the names on its path. -/
  directories : List (List String)
  /-- The files, each by the names on its path. -/
  files : List (List String)
  /-- The directory from which paths lead that do not begin at the root. -/
  here : List String
  /-- The names that the host knows, in lower case, with the addresses of version 4 they stand
  for. -/
  names : List (String × BitVec 32)
  /-- The interfaces by their names and numbers. -/
  interfaces : List (String × Nat)
  /-- The port that is given to a socket that asks for any. -/
  freePort : Nat
  /-- The transports over which clients come to the host. -/
  transports : List Transport
  deriving Repr

namespace Host

/-- A host with the given files, and the given directories and all above them, that knows no host
but itself.  The first directory is the one from which paths lead. -/
def ofPaths (directories files : List String) (transports : List Transport) : Host :=
  { directories := directories.flatMap fun path => ancestry (pathNames path)
    files := files.map pathNames
    here := pathNames (directories.headD "")
    names := [("localhost", 0x7F000001)]
    interfaces := [("lo", 1)]
    freePort := 32768
    transports }

/-- The directory that the given names lead to, from the directory `base`. -/
def walk (host : Host) : List String → List String → Except BindError (List String)
  | base, [] => .ok base
  | base, name :: names =>
    if name = "." then host.walk base names
    else if name = ".." then host.walk base.dropLast names
    else
      let next := base ++ [name]
      if next ∈ host.directories then host.walk next names
      else if next ∈ host.files then .error .notDirectory
      else .error .missing

/-- The place for a new file at a path. -/
def place (host : Host) (path : String) : Except BindError (List String) := do
  let names := pathNames path
  let start := if path.startsWith "/" then [] else host.here
  let directory ← host.walk start names.dropLast
  match names.getLast? with
  -- the path is that of the root
  | none => .error .inUse
  | some name =>
    let whole := directory ++ [name]
    if name = "." ∨ name = ".." then .error .inUse
    else if whole ∈ host.directories ∨ whole ∈ host.files then .error .inUse
    else if path.endsWith "/" then .error .missing
    else .ok whole

/-! ### Endpoints -/

/-- The address of the internet that an endpoint names, with the number of the interface it is meant
on; zero if none is named. -/
structure Destination where
  ip : Ip
  interface : Nat
  deriving DecidableEq, Repr

/-- Splits an endpoint at its last colon. -/
def splitPort? (endpoint : String) : Option (String × String) :=
  match (endpoint.splitOn ":").reverse with
  | port :: first :: rest => some (":".intercalate (first :: rest).reverse, port)
  | _ => none

/-- The number that is no number of an interface any more. -/
def interfaceBound : Nat :=
  0x100000000

/-- The interface that decimal digits name. -/
def interfaceNumber? (digits : String) : Option Nat :=
  (Natural.digits? 10 digits.toList).filter (· < interfaceBound)

/-- The interface that is named behind an address of version 6: by its number, or by its name if the
address has a meaning on one interface only. -/
def interface? (host : Host) (number : BitVec 128) (name : String) : Option Nat :=
  let byName := if Ip.isOnInterface number then host.interfaces.lookup name else none
  byName.or (interfaceNumber? name)

/-- The destination that a text in brackets names. -/
def bracketed? (text : String) : Option Destination :=
  match text.toList with
  | '[' :: rest =>
    if rest.getLast? = some ']' then
      match (String.ofList rest.dropLast).splitOn "%" with
      | [address] => (Ip.v6? address).map fun n => ⟨.v6 n, 0⟩
      | [address, number] =>
        (Ip.v6? address).bind fun n => (interfaceNumber? number).map fun i => ⟨.v6 n, i⟩
      | _ => none
    else none
  | _ => none

/-- The destination of version 6 that a name is; an error if it names an interface and there is no
such interface. -/
def literal? (host : Host) (name : String) : Option (Except BindError Destination) :=
  match name.splitOn "%" with
  | [] => none
  | address :: rest =>
    (Ip.v6? address).map fun n =>
      if rest.isEmpty then .ok ⟨.v6 n, 0⟩
      else match host.interface? n ("%".intercalate rest) with
        | some i => .ok ⟨.v6 n, i⟩
        | none => .error .unknownHost

/-- The destination that a name stands for.  A name that can be that of a host is looked for in vain
beyond the names that the host knows. -/
def resolve (host : Host) (name : String) : Except BindError Destination :=
  if '\x00' ∈ name.toList then .error .zeroInHost
  else match Ip.v4? name with
    | some n => .ok ⟨.v4 n, 0⟩
    | none =>
      match host.literal? name with
      | some destination => destination
      | none =>
        match host.names.lookup name.toLower with
        | some n => .ok ⟨.v4 n, 0⟩
        | none => .error (if HostName.isValid name then .lookup else .unknownHost)

/-- The destination and the port that an endpoint names.  Brackets count only in front of a port
without a plus. -/
def target (host : Host) (endpoint : String) : Except BindError (Destination × Nat) :=
  match splitPort? endpoint with
  | none => .error .noPort
  | some (name, port) =>
    match Natural.below? 0x10000 port with
    | none => .error .badPort
    | some n =>
      match if port.startsWith "+" then none else bracketed? name with
      | some destination => .ok (destination, n)
      | none => (host.resolve name).map (·, n)

/-! ### Binding -/

/-- A place where a socket is open. -/
structure Bound where
  /-- The address under which the socket is known on its host. -/
  shown : String
  /-- The place of a Unix socket among the files. -/
  file : Option (List String)
  deriving Repr

/-- The longest path of a Unix socket, in bytes. -/
def maxPathLength : Nat :=
  107

/-- The text of the address at which a socket can be opened for a destination. -/
def boundName (host : Host) (destination : Destination) : Except BindError String :=
  match destination.ip with
  | .v4 n => .ok (Ip.dotted n)
  | .v6 n =>
    if n = 0 then .ok "[::]"
    else if let some inner := Ip.mapped? n then .ok ("[::ffff:" ++ Ip.dotted inner ++ "]")
    else if Ip.isMulticast n then .error .notBindable
    else if Ip.isLinkLocal n then
      if destination.interface = 0 then .error .notBindable
      else if host.interfaces.any (·.2 = destination.interface) then .error .notLocal
      else .error .noInterface
    else .error .notLocal

/-- Opens a socket at an address. -/
def bind (host : Host) (address : ListenAddress) : Except BindError Bound :=
  match address.transport with
  | .tcp => do
    let (destination, port) ← host.target address.endpoint
    let name ← host.boundName destination
    let port := if port = 0 then host.freePort else port
    return ⟨name ++ ":" ++ toString port, none⟩
  | .unix =>
    let bytes := Utf8.encode address.endpoint
    -- a leading zero byte marks a name that is not among the files
    if bytes.head? = some 0 then
      if maxPathLength + 1 < bytes.length then .error .nameTooLong
      else .ok ⟨address.endpoint, none⟩
    else if 0 ∈ bytes then .error .zeroInPath
    else if maxPathLength < bytes.length then .error .pathTooLong
    else (host.place address.endpoint).map fun file => ⟨address.endpoint, some file⟩

end Host

end ForwardIntake
