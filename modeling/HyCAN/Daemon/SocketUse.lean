import HyCAN.Daemon.UnixSocketSteps
import HyCAN.Transition.Machine

/-! Any number of `UnixSocket` objects and any order of calls on them, moves included. -/
namespace HyCAN

open Ownership Transition

/-- What the moves leave in their source, where the moved-from string is empty. -/
def UnixSocket.movedFrom (object : UnixSocket) : UnixSocket :=
  { object with socketFd := none, socketPath := [], connected := false }

/-- The move constructor, and the move assignment behind its `close`. -/
def UnixSockets.move {Place : Type} [DecidableEq Place] (s : UnixSockets Place) (source target : Place)
    (object : UnixSocket) : UnixSockets Place :=
  { s with
    ledger := s.ledger.pass source target
    objects := Function.update (Function.update s.objects target (some object)) source
      (some object.movedFrom) }

structure SocketUse (Place : Type) where
  sockets : UnixSockets Place
  /-- `initialize` was called on the object. -/
  initialized : Place → Bool
  /-- Where `close` has run and nothing has come into the object since: the serial that the
  next descriptor had then. -/
  closed : Place → Option Nat

inductive SocketCall (Place : Type) where
  | construct (o : Place) (name : List UInt8) (mode : SocketMode)
  | initializeSocket (o : Place) (outcome : InitializeOutcome)
  | accept (o new : Place) (outcome : Option Nat)
  | close (o : Place)
  | moveConstruct (source target : Place)
  | moveAssign (source target : Place)
  | destroy (o : Place)
  /-- Descriptors that are no `UnixSocket`'s. -/
  | openForeign (fd : Nat)
  | closeForeign (fd : Nat)

namespace SocketUse

variable {Place : Type} [DecidableEq Place]

/-- No object yet, whatever the process has open and whatever is at the paths. -/
def init (ledger : Ledger Place) (files : List UInt8 → Option PathEntry) : SocketUse Place :=
  ⟨⟨ledger, fun _ => false, files, fun _ => none⟩, fun _ => false, fun _ => none⟩

variable (s : SocketUse Place)

def after (sockets : UnixSockets Place) (o : Place) (initialized : Bool) (closed : Option Nat) :
    SocketUse Place :=
  ⟨sockets, Function.update s.initialized o initialized, Function.update s.closed o closed⟩

/-- What `initialize` leaves of the object: all its failures but that of `socket` close it. -/
def closedBy (o : Place) (outcome : InitializeOutcome) (done : Bool) (sockets : UnixSockets Place) :
    Option Nat :=
  if done then none
  else if outcome.fd = none then s.closed o
  else some sockets.ledger.nextSerial

/-- `initialize` is called at most once on an object, and a constructor makes a new one. -/
def step (s : SocketUse Place) : SocketCall Place → Option (SocketUse Place)
  | .construct o name mode =>
    match s.sockets.objects o with
    | some _ => none
    | none => some (s.after (s.sockets.put o (.ofName name mode)) o false none)
  | .initializeSocket o outcome =>
    match s.sockets.objects o with
    | none => none
    | some object =>
      if s.initialized o then none
      else (s.sockets.initializeSocket o object outcome).map fun (done, sockets) =>
        s.after sockets o true (s.closedBy o outcome done sockets)
  | .accept o new outcome =>
    match s.sockets.objects o, s.sockets.objects new with
    | some object, none =>
      (s.sockets.accept object new outcome).map fun (_, sockets) => s.after sockets new false none
    | _, _ => none
  | .close o =>
    match s.sockets.objects o with
    | none => none
    | some object =>
      some (s.after (s.sockets.close o object) o (s.initialized o)
        (some ((s.closed o).getD s.sockets.ledger.nextSerial)))
  | .moveConstruct source target =>
    match s.sockets.objects source, s.sockets.objects target with
    | some object, none =>
      some (s.after (s.sockets.move source target object) target false (s.closed source))
    | _, _ => none
  | .moveAssign source target =>
    match s.sockets.objects source, s.sockets.objects target with
    | some object, some before =>
      if source = target then some s
      else some (s.after ((s.sockets.close target before).move source target object) target
        (s.initialized target) (s.closed source))
    | _, _ => none
  | .destroy o =>
    match s.sockets.objects o with
    | none => none
    | some object => some (s.after (s.sockets.destroy o object) o false none)
  | .openForeign fd =>
    if s.sockets.ledger.openings fd = none then
      some { s with sockets := { s.sockets with ledger := s.sockets.ledger.openForeign fd } }
    else none
  | .closeForeign fd =>
    if s.sockets.ledger.openings fd = some .foreign then
      some { s with sockets := { s.sockets with ledger := s.sockets.ledger.close fd } }
    else none

def machine (Place : Type) [DecidableEq Place] : Machine (SocketUse Place) (SocketCall Place) := ⟨step⟩

end SocketUse
end HyCAN
