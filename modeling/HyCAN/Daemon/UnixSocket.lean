import HyCAN.Daemon.Message
import HyCAN.Ownership.Ledger

/-! `UnixSocket` objects, the descriptors behind them and the files that servers bind
their sockets to. Of the kernel, this is what a process sees that nobody else
interferes with. -/
namespace HyCAN

open Ownership

/-- `socket_path_` of a `UnixSocket`. -/
def socketPath (name : List UInt8) : List UInt8 :=
  ascii "/run/hycan_" ++ name

inductive SocketMode where
  | server
  | client
  deriving DecidableEq

structure UnixSocket where
  /-- `none` for -1. -/
  socketFd : Option Nat
  socketPath : List UInt8
  mode : SocketMode
  connected : Bool

namespace UnixSocket

/-- The constructor with a path and a mode. -/
def ofName (name : List UInt8) (mode : SocketMode) : UnixSocket :=
  ⟨none, HyCAN.socketPath name, mode, false⟩

/-- The constructor for accepted connections. -/
def ofAccepted (fd : Nat) (path : List UInt8) : UnixSocket :=
  ⟨some fd, path, .client, true⟩

/-- `sun_path` after `setup_address`: `strcpy` into zeroed memory. -/
def setupAddress (path : List UInt8) : Option (Vector UInt8 108) :=
  if 108 ≤ path.length then none
  else some ⟨(CString.strncpy 108 path).toArray, by simp⟩

/-- What the system calls take the path for. -/
def file (object : UnixSocket) : List UInt8 :=
  CString.read object.socketPath

/-- The address of a path that is short enough is the path. -/
theorem setupAddress_eq_some {path : List UInt8} (hLength : path.length < 108) (hText : 0 ∉ path) :
    ∃ address, setupAddress path = some address ∧ CString.read address.toList = path := by
  have hShort : ¬108 ≤ path.length := Nat.not_le.mpr hLength
  refine ⟨⟨(CString.strncpy 108 path).toArray, by simp⟩, by rw [setupAddress, if_neg hShort], ?_⟩
  show CString.read (CString.strncpy 108 path) = path
  have hRoom : 0 < 108 - path.length := by omega
  obtain ⟨room, hRoom⟩ := Nat.exists_eq_add_of_lt hRoom
  rw [CString.strncpy, CString.read_of_not_mem hText, List.take_of_length_le hLength.le,
    CString.read_append_of_not_mem hText, hRoom]
  simp [CString.read, List.replicate_succ]

end UnixSocket

/-- What can be at a path: a socket that was bound there, something of an earlier run, or
a directory, which `unlink` does not remove. -/
inductive PathEntry where
  | bound (serial : Nat)
  | stale
  | directory
  deriving DecidableEq

/-- The objects of a process by their places, the ledger of what they got from `socket`
and `accept`, the sockets that listen, and the files. -/
structure UnixSockets (Place : Type) where
  ledger : Ledger Place
  listening : Nat → Bool
  files : List UInt8 → Option PathEntry
  objects : Place → Option UnixSocket

/-- The system calls of `initialize`: `socket` returns a number that is not in use, and
then it may be one of the other calls that fails. -/
inductive InitializeOutcome where
  | socketFails
  | bindFails (fd : Nat)
  | listenFails (fd : Nat)
  | connectFails (fd : Nat)
  | done (fd : Nat)
  deriving DecidableEq

/-- What `socket` returns. -/
def InitializeOutcome.fd : InitializeOutcome → Option Nat
  | .socketFails => none
  | .bindFails fd | .listenFails fd | .connectFails fd | .done fd => some fd

namespace UnixSockets

variable {Place : Type} [DecidableEq Place] (s : UnixSockets Place)

def put (o : Place) (object : UnixSocket) : UnixSockets Place :=
  { s with objects := Function.update s.objects o (some object) }

def unlink (path : List UInt8) : UnixSockets Place :=
  if s.files path = some .directory then s
  else { s with files := Function.update s.files path none }

/-- The descriptor's part of `close`. -/
def closeFd (o : Place) : Option Nat → UnixSockets Place
  | none => s
  | some fd => { s with ledger := (s.ledger.close fd).forget o }

/-- The file's part. -/
def removeFile (object : UnixSocket) : UnixSockets Place :=
  if object.mode = .server ∧ object.socketPath ≠ [] then s.unlink object.file else s

def close (o : Place) (object : UnixSocket) : UnixSockets Place :=
  ((s.closeFd o object.socketFd).removeFile object).put o
    { object with socketFd := none, connected := false }

/-- What `socket` returns goes to `socket_fd_`. -/
def obtain (o : Place) (object : UnixSocket) (fd : Nat) : UnixSockets Place :=
  { s.put o { object with socketFd := some fd } with ledger := s.ledger.issue o fd }

/-- `bind`, which never takes a path where something is. -/
def bind (serial : Nat) (path : List UInt8) : Option (UnixSockets Place) :=
  if s.files path = none then
    some { s with files := Function.update s.files path (some (.bound serial)) }
  else none

/-- `initialize` of a server, from `unlink` on. -/
def initializeServer (o : Place) (object : UnixSocket) (serial : Nat) (outcome : InitializeOutcome) :
    Bool × UnixSockets Place :=
  let s := s.unlink object.file
  match outcome with
  | .bindFails _ => (false, s.close o object)
  | outcome =>
    match s.bind serial object.file with
    | none => (false, s.close o object)
    | some s =>
      match outcome with
      | .listenFails _ => (false, s.close o object)
      | _ => (true, { s.put o { object with connected := true } with
          listening := Function.update s.listening serial true })

/-- `initialize` of a client, from `connect` on. -/
def initializeClient (o : Place) (object : UnixSocket) (outcome : InitializeOutcome) :
    Bool × UnixSockets Place :=
  match outcome with
  | .connectFails _ => (false, s.close o object)
  | _ => (true, s.put o { object with connected := true })

/-- `initialize`, if the number that `socket` returns is free. -/
def initializeSocket (o : Place) (object : UnixSocket) (outcome : InitializeOutcome) :
    Option (Bool × UnixSockets Place) :=
  match outcome.fd with
  | none => some (false, { s.put o { object with socketFd := none } with ledger := s.ledger.forget o })
  | some fd =>
    if s.ledger.openings fd = none then
      let t := s.obtain o object fd
      let object := { object with socketFd := some fd }
      if (UnixSocket.setupAddress object.socketPath).isNone then some (false, t.close o object)
      else match object.mode with
        | .server => some (t.initializeServer o object s.ledger.nextSerial outcome)
        | .client => some (t.initializeClient o object outcome)
    else none

/-- `accept` into a new object, with the number that the system call returns if a
connection comes in time. -/
def accept (object : UnixSocket) (new : Place) (outcome : Option Nat) :
    Option (Bool × UnixSockets Place) :=
  if object.mode ≠ .server ∨ object.connected = false then some (false, s)
  else match outcome with
    | none => some (false, s)
    | some fd =>
      if s.ledger.openings fd = none then
        some (true, { s.put new (.ofAccepted fd object.socketPath) with ledger := s.ledger.issue new fd })
      else none

def destroy (o : Place) (object : UnixSocket) : UnixSockets Place :=
  { s.close o object with objects := Function.update (s.close o object).objects o none }

/-- The destructor of the `std::unique_ptr` that owns the object, if it owns one. -/
def reset (o : Place) : UnixSockets Place :=
  match s.objects o with
  | none => s
  | some object => s.destroy o object

end UnixSockets
end HyCAN
