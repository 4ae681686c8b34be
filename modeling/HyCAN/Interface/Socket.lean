import HyCAN.Ownership.Ledger
import HyCAN.Transition.Machine
import HyCAN.Client.Interface

/-! `Socket` objects and the descriptors behind them, for any program that makes,
connects, moves and destroys them, on their own or as members of a `Sender` or a
`Dispatcher`. The ledger says which descriptor an object got from `socket`; the code
only has `sock_fd`. -/
namespace HyCAN

open Ownership Transition

structure Socket where
  sockFd : Int
  interfaceName : List UInt8

/-- What a `Socket` is a member of, if it is one. A `Dispatcher` cannot be moved. -/
inductive SocketHolder where
  | program
  | sender
  | dispatcher
  deriving DecidableEq

structure SocketObject where
  holder : SocketHolder
  socket : Socket

/-- The system calls of `ensure_connected`: the number that `socket` returns, any that
is not in use, and which call fails with which text of `strerror`. -/
inductive ConnectOutcome where
  | socketFails (errno : List UInt8)
  | indexFails (fd : Nat) (errno : List UInt8)
  | bindFails (fd : Nat) (errno : List UInt8)
  | connected (fd : Nat)

namespace ConnectOutcome

def number : ConnectOutcome → Option Nat
  | .socketFails _ => none
  | .indexFails fd _ | .bindFails fd _ | .connected fd => some fd

/-- What `ensure_connected` returns. -/
def result (interfaceName : List UInt8) : ConnectOutcome → Except Error Unit
  | .socketFails errno => .error ⟨.canSocketCreateError, ascii "Failed to create CAN socket: " ++ errno⟩
  | .indexFails _ errno => .error ⟨.canInterfaceIndexError, ascii "Failed to get CAN interface '" ++
      Interface.ifrName interfaceName ++ ascii "' index: " ++ errno⟩
  | .bindFails _ errno => .error ⟨.canSocketBindError, ascii "Failed to bind CAN socket: " ++ errno⟩
  | .connected _ => .ok ()

end ConnectOutcome

/-- A `close` of a number that is not negative, and whether the object owned the
descriptor behind it at that moment. -/
structure SocketClose where
  object : Nat
  fd : Nat
  rightful : Bool

structure SocketObjects where
  ledger : Ledger Nat
  objects : Nat → Option SocketObject
  closes : List SocketClose

namespace SocketObjects

/-- Before the program has made any object, with some numbers in use by the application. -/
def start (application : Nat → Bool) : SocketObjects where
  ledger := ⟨fun fd => if application fd then some .foreign else none, 0, fun _ => none⟩
  objects := fun _ => none
  closes := []

def closeFd (s : SocketObjects) (o : Nat) : Int → SocketObjects
  | .ofNat fd => { s with
      ledger := s.ledger.close fd
      closes := s.closes ++ [⟨o, fd, s.ledger.owns o fd⟩] }
  | .negSucc _ => s

/-- An assignment to `sock_fd`: what it stood for before, it stands for no longer. -/
def setFd (s : SocketObjects) (o : Nat) (object : SocketObject) (fd : Int) : SocketObjects :=
  { s with
    ledger := s.ledger.forget o
    objects := Function.update s.objects o
      (some { object with socket := { object.socket with sockFd := fd } }) }

/-- `sock_fd = socket(..)` -/
def obtain (s : SocketObjects) (o : Nat) (object : SocketObject) (fd : Nat) : SocketObjects :=
  { s.setFd o object fd with ledger := (s.setFd o object fd).ledger.issue o fd }

/-- `close(sock_fd); sock_fd = -1` -/
def giveUp (s : SocketObjects) (o : Nat) (object : SocketObject) (fd : Int) : SocketObjects :=
  (s.closeFd o fd).setFd o object (-1)

/-- The first lines of `ensure_connected` and of the move assignment: 0 counts as no
descriptor. -/
def disconnect (s : SocketObjects) (o : Nat) (object : SocketObject) : SocketObjects :=
  if 0 < object.socket.sockFd then s.giveUp o object object.socket.sockFd else s

/-- The kernel does not hand out a number that is in use. -/
def ensureConnected (s : SocketObjects) (o : Nat) (object : SocketObject) (outcome : ConnectOutcome) :
    Option (Except Error Unit × SocketObjects) :=
  let s := s.disconnect o object
  let result := outcome.result object.socket.interfaceName
  match outcome with
  | .socketFails _ => some (result, s.setFd o object (-1))
  | .indexFails fd _ | .bindFails fd _ =>
    if s.ledger.openings fd = none then some (result, (s.obtain o object fd).giveUp o object fd)
    else none
  | .connected fd =>
    if s.ledger.openings fd = none then some (result, s.obtain o object fd) else none

/-- `Socket(Socket &&)`, also as part of the move of a `Sender`. -/
def moveConstruct (s : SocketObjects) (o src : Nat) (object : SocketObject) : SocketObjects :=
  { s with
    ledger := s.ledger.pass src o
    objects := Function.update (Function.update s.objects o (some object)) src
      (some { object with socket := { object.socket with sockFd := -1 } }) }

/-- `operator=(Socket &&)` of two different objects. -/
def moveAssign (s : SocketObjects) (o src : Nat) (object other : SocketObject) : SocketObjects :=
  let s := if 0 < object.socket.sockFd then s.closeFd o object.socket.sockFd else s
  (s.setFd o object (-1)).moveConstruct o src { object with socket := other.socket }

/-- `~Socket` -/
def destroy (s : SocketObjects) (o : Nat) (object : SocketObject) : SocketObjects :=
  let s := s.closeFd o object.socket.sockFd
  { s with ledger := s.ledger.forget o, objects := Function.update s.objects o none }

inductive Action where
  | construct (o : Nat) (holder : SocketHolder) (interfaceName : List UInt8)
  /-- A call of `ensure_connected`: by the program, by `Sender::send` or by
  `Dispatcher::start`. -/
  | connect (o : Nat) (outcome : ConnectOutcome)
  | moveConstruct (o src : Nat)
  | moveAssign (o src : Nat)
  | destroy (o : Nat)
  /-- The application opens and closes descriptors of its own. -/
  | openForeign (fd : Nat)
  | closeForeign (fd : Nat)

def step (s : SocketObjects) : Action → Option SocketObjects
  | .construct o holder interfaceName =>
    match s.objects o with
    | some _ => none
    | none => some { s with objects := Function.update s.objects o (some ⟨holder, ⟨0, interfaceName⟩⟩) }
  | .connect o outcome =>
    match s.objects o with
    | none => none
    | some object => (s.ensureConnected o object outcome).map Prod.snd
  | .moveConstruct o src =>
    match s.objects o, s.objects src with
    | none, some object =>
      if object.holder = .dispatcher then none else some (s.moveConstruct o src object)
    | _, _ => none
  | .moveAssign o src =>
    match s.objects o, s.objects src with
    | some object, some other =>
      if object.holder = .dispatcher ∨ other.holder ≠ object.holder then none
      else if o = src then some s
      else some (s.moveAssign o src object other)
    | _, _ => none
  | .destroy o =>
    match s.objects o with
    | none => none
    | some object => some (s.destroy o object)
  | .openForeign fd =>
    if s.ledger.openings fd = none then some { s with ledger := s.ledger.openForeign fd } else none
  | .closeForeign fd =>
    if s.ledger.openings fd = some .foreign then some { s with ledger := s.ledger.close fd } else none

def machine : Machine SocketObjects Action := ⟨step⟩

/-- A failed `write`. -/
structure WriteError where
  errno : Int
  text : List UInt8

/-- `EBADF`, `ENETDOWN`, `EPIPE`, `ENXIO` and `ENODEV`. -/
def WriteError.isFatal (error : WriteError) : Bool :=
  error.errno ∈ [9, 100, 32, 6, 19]

/-- The end of `send`, with `EAGAIN`, which is `EWOULDBLOCK`, and `ENOBUFS`. -/
def WriteError.result (error : WriteError) : Except Error Unit :=
  if error.errno ∈ [11, 105] then .error ⟨.canSocketBufferFull, ascii "CAN socket buffer full"⟩
  else .error ⟨.canSocketWriteError, ascii "Failed to send CAN message: " ++ error.text ++
    ascii " (errno: " ++ Decimal.text error.errno ++ ascii ")"⟩

/-- The calls that `send` makes, in their order. -/
structure SendFaults where
  connect : ConnectOutcome
  write : Option WriteError
  reconnect : ConnectOutcome
  rewrite : Option WriteError

/-- `Sender::send` from its first `write` on. -/
def sendFrame (s : SocketObjects) (o : Nat) (object : SocketObject) (faults : SendFaults) :
    Option (Except Error Unit × SocketObjects) :=
  match faults.write with
  | none => some (.ok (), s)
  | some error =>
    if error.isFatal then
      match s.ensureConnected o object faults.reconnect with
      | none => none
      | some (.error error, s) => some (.error error, s)
      | some (.ok (), s) =>
        match faults.rewrite with
        | none => some (.ok (), s)
        | some error => some (error.result, s)
    else some (error.result, s)

/-- `Sender::send`, whose own test takes 0 for no descriptor as well. -/
def send (s : SocketObjects) (o : Nat) (faults : SendFaults) : Option (Except Error Unit × SocketObjects) :=
  match s.objects o with
  | none => none
  | some object =>
    if object.socket.sockFd ≤ 0 then
      match s.ensureConnected o object faults.connect with
      | none => none
      | some (.error error, s) => some (.error error, s)
      | some (.ok (), s) =>
        match s.objects o with
        | none => none
        | some object => s.sendFrame o object faults
    else s.sendFrame o object faults

theorem step_connect {s t : SocketObjects} {o : Nat} {object : SocketObject} {outcome : ConnectOutcome}
    {result : Except Error Unit} (hObject : s.objects o = some object)
    (h : s.ensureConnected o object outcome = some (result, t)) :
    machine.step s (.connect o outcome) = some t := by
  change s.step (.connect o outcome) = some t
  simp only [step, hObject, h, Option.map_some]

theorem sendFrame_run {s t : SocketObjects} {o : Nat} {object : SocketObject} {faults : SendFaults}
    {result : Except Error Unit} (hObject : s.objects o = some object)
    (h : s.sendFrame o object faults = some (result, t)) :
    ∃ outcomes : List ConnectOutcome, outcomes.length ≤ 1 ∧
      machine.run s (outcomes.map (.connect o)) = some t := by
  unfold sendFrame at h
  split at h
  · cases h
    exact ⟨[], by simp, rfl⟩
  · split at h
    · cases hConnect : s.ensureConnected o object faults.reconnect with
      | none => simp [hConnect] at h
      | some connected =>
          obtain ⟨connection, u⟩ := connected
          have hRun : machine.run s ([faults.reconnect].map (.connect o)) = some u := by
            simp [step_connect hObject hConnect]
          have hSame : u = t := by
            rw [hConnect] at h
            cases connection with
            | error error => exact (Prod.mk.inj (Option.some.inj h)).2
            | ok =>
                cases hRewrite : faults.rewrite with
                | none =>
                    simp only [hRewrite, Option.some.injEq, Prod.mk.injEq] at h
                    exact h.2
                | some error =>
                    simp only [hRewrite, Option.some.injEq, Prod.mk.injEq] at h
                    exact h.2
          exact ⟨[faults.reconnect], by simp, hSame ▸ hRun⟩
    · cases h
      exact ⟨[], by simp, rfl⟩

/-- What `send` does with descriptors is what at most two calls of `ensure_connected` do. -/
theorem send_run {s t : SocketObjects} {o : Nat} {faults : SendFaults} {result : Except Error Unit}
    (h : s.send o faults = some (result, t)) :
    ∃ outcomes : List ConnectOutcome, outcomes.length ≤ 2 ∧
      machine.run s (outcomes.map (.connect o)) = some t := by
  unfold send at h
  split at h
  · cases h
  next object hObject =>
    split at h
    · cases hConnect : s.ensureConnected o object faults.connect with
      | none => simp [hConnect] at h
      | some connected =>
          obtain ⟨connection, u⟩ := connected
          rw [hConnect] at h
          have hStep := step_connect hObject hConnect
          cases connection with
          | error error =>
              have hSame : u = t := (Prod.mk.inj (Option.some.inj h)).2
              exact ⟨[faults.connect], by simp, by simp [hStep, hSame]⟩
          | ok =>
              cases hAgain : u.objects o with
              | none => simp [hAgain] at h
              | some again =>
                  simp only [hAgain] at h
                  obtain ⟨outcomes, hLength, hRun⟩ := sendFrame_run hAgain h
                  refine ⟨faults.connect :: outcomes, by simpa using hLength, ?_⟩
                  simp [hStep, hRun]
    · obtain ⟨outcomes, hLength, hRun⟩ := sendFrame_run hObject h
      exact ⟨outcomes, Nat.le_succ_of_le hLength, hRun⟩

end SocketObjects
end HyCAN
