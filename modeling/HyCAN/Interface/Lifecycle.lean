import HyCAN.Interface.Socket

/-! `up` and `down` of one interface, call by call: the link stage, the stages of
`Dispatcher::start` and `Dispatcher::stop`, the epoll set and the thread object. A
call returns before the next one starts; the reaper leaves on its own once a stop is
requested of it. -/
namespace HyCAN

open Ownership Transition

/-- A joinable `reap_thread`: whether a stop is requested of it, and whether
`reap_process` has returned. -/
structure ReapThread where
  stopRequested : Bool
  exited : Bool
  deriving DecidableEq

inductive LifecycleCall where
  | up
  | down
  deriving DecidableEq

structure InterfaceLifecycle where
  /-- The socket of the dispatcher is the object 0. -/
  sockets : SocketObjects
  threadEventFd : Nat
  epoll : List Nat
  /-- The link that the opening with this serial is bound to. -/
  bound : Nat → Option (List UInt8)
  reapThread : Option ReapThread
  /-- The call that has just returned success. -/
  succeeded : Option LifecycleCall

/-- The stages of `start` that can fail after the socket is connected, with the texts
of `strerror`. -/
structure StartFaults where
  connect : ConnectOutcome
  epollAdd : Option (List UInt8)
  flush : Option (List UInt8)

/-- What each call of the client is answered. -/
abbrev ClientAnswers := Nat → (call : ClientCall) → call.Answer

/-- Every call gets the answer that is laid down for it. -/
def scripted : Handler ClientCall.Answer Unit ((call : ClientCall) → call.Answer) :=
  fun call answer state => (answer call, state)

def answered {Result : Type} (program : ClientProgram Result) (answers : ClientAnswers) : Result :=
  (program.run scripted answers ()).1

namespace InterfaceLifecycle

variable (type : InterfaceType) (interfaceName : List UInt8)

/-- A new interface, in a process that has other descriptors in use. -/
def init (application : Nat → Bool) (threadEventFd : Nat) : InterfaceLifecycle where
  sockets :=
    { SocketObjects.start fun fd => application fd || fd == threadEventFd with
      objects := fun o => if o = 0 then some ⟨.dispatcher, ⟨0, interfaceName⟩⟩ else none }
  threadEventFd := threadEventFd
  epoll := [threadEventFd]
  bound := fun _ => none
  reapThread := none
  succeeded := none

/-- The descriptors that were closed between two states. -/
def closedSince (s t : SocketObjects) : List Nat :=
  (t.closes.drop s.closes.length).map SocketClose.fd

/-- `ensure_connected`. A descriptor that is closed leaves the epoll set. -/
def connect (s : InterfaceLifecycle) (object : SocketObject) (outcome : ConnectOutcome) :
    Option (Except Error Unit × InterfaceLifecycle) :=
  match s.sockets.ensureConnected 0 object outcome with
  | none => none
  | some (result, sockets) =>
    some (result, { s with
      sockets := sockets
      epoll := s.epoll.filter fun fd => fd ∉ closedSince s.sockets sockets
      bound := match outcome with
        | .connected _ => Function.update s.bound s.sockets.ledger.nextSerial
            (some (Interface.ifrName interfaceName))
        | _ => s.bound })

/-- `Dispatcher::epoll_fd_add_sock_fd`; the kernel adds no descriptor twice. -/
def epollAdd (s : InterfaceLifecycle) (sockFd : Int) (fault : Option (List UInt8)) :
    Option (Except Error Unit × InterfaceLifecycle) :=
  match fault with
  | some errno => some (.error ⟨.epollError, ascii "Failed to EPOLL_CTL_ADD thread_event_fd: " ++ errno⟩, s)
  | none =>
    if sockFd.toNat ∈ s.epoll then none else some (.ok (), { s with epoll := s.epoll ++ [sockFd.toNat] })

/-- `Socket::flush` -/
def flush (sockFd : Int) (fault : Option (List UInt8)) : Except Error Unit :=
  if sockFd < 0 then
    .error ⟨.canInvalidSocketError, ascii "Cannot flush with invalid socket descriptor"⟩
  else match fault with
    | some errno => .error ⟨.canFlushError, ascii "Failed to flush linux buffer: " ++ errno⟩
    | none => .ok ()

/-- The last stage of `start`: a thread object that is joinable stays, whatever has
become of its thread. -/
def spawn (s : InterfaceLifecycle) : InterfaceLifecycle :=
  match s.reapThread with
  | some _ => s
  | none => { s with reapThread := some ⟨false, false⟩ }

/-- `sock_fd` of the dispatcher's socket. -/
def sockFd (s : InterfaceLifecycle) : Int :=
  match s.sockets.objects 0 with
  | some object => object.socket.sockFd
  | none => -1

/-- `Dispatcher::start` -/
def start (s : InterfaceLifecycle) (faults : StartFaults) :
    Option (Except Error Unit × InterfaceLifecycle) :=
  match s.sockets.objects 0 with
  | none => none
  | some object =>
    match s.connect interfaceName object faults.connect with
    | none => none
    | some (.error error, s) => some (.error error, s)
    | some (.ok (), s) =>
      match s.epollAdd s.sockFd faults.epollAdd with
      | none => none
      | some (.error error, s) => some (.error error, s)
      | some (.ok (), s) =>
        match flush s.sockFd faults.flush with
        | .error error => some (.error error, s)
        | .ok () => some (.ok (), s.spawn)

/-- `Dispatcher::stop`. The thread is told to stop before the write, and joined only
after it; `join` returns when the thread has exited. -/
def stop (s : InterfaceLifecycle) (writeFault : Option (List UInt8)) :
    Except Error Unit × InterfaceLifecycle :=
  match s.reapThread with
  | none => (.ok (), s)
  | some reaper =>
    match writeFault with
    | some errno =>
      (.error ⟨.reaperStopError, ascii "Failed to write one bytes to the specified socket: " ++ errno⟩,
        { s with reapThread := some { reaper with stopRequested := true } })
    | none => (.ok (), { s with reapThread := none })

def up (s : InterfaceLifecycle) (bitrate : UInt32) (answers : ClientAnswers) (faults : StartFaults) :
    Option (Except Error Unit × InterfaceLifecycle) :=
  match answered (Interface.linkUp type interfaceName bitrate) answers with
  | .error error => some (.error error, s)
  | .ok () => s.start interfaceName faults

def down (s : InterfaceLifecycle) (answers : ClientAnswers) (writeFault : Option (List UInt8)) :
    Except Error Unit × InterfaceLifecycle :=
  match answered (Interface.down interfaceName) answers with
  | .error error => (.error error, s)
  | .ok () => s.stop writeFault

inductive Action where
  | up (bitrate : UInt32) (answers : ClientAnswers) (faults : StartFaults)
  | down (answers : ClientAnswers) (writeFault : Option (List UInt8))
  /-- The reaper finds its stop request. -/
  | exit
  /-- Other code of the process opens and closes descriptors. -/
  | openForeign (fd : Nat)
  | closeForeign (fd : Nat)

/-- The call returns, and it is remembered if it returns success. -/
def returns (call : LifecycleCall) : Except Error Unit × InterfaceLifecycle → InterfaceLifecycle
  | (.ok (), s) => { s with succeeded := some call }
  | (.error _, s) => { s with succeeded := none }

def exit (s : InterfaceLifecycle) : Option InterfaceLifecycle :=
  match s.reapThread with
  | none => none
  | some reaper =>
    if reaper.stopRequested then
      some { s with reapThread := some { reaper with exited := true }, succeeded := none }
    else none

/-- The eventfd is no descriptor of the application's. -/
def foreign (s : InterfaceLifecycle) (action : SocketObjects.Action) : Option InterfaceLifecycle :=
  (s.sockets.step action).map fun sockets => { s with sockets, succeeded := none }

def step (s : InterfaceLifecycle) : Action → Option InterfaceLifecycle
  | .up bitrate answers faults => (s.up type interfaceName bitrate answers faults).map (returns .up)
  | .down answers writeFault => some (returns .down (s.down interfaceName answers writeFault))
  | .exit => s.exit
  | .openForeign fd => s.foreign (.openForeign fd)
  | .closeForeign fd => if fd = s.threadEventFd then none else s.foreign (.closeForeign fd)

def machine : Machine InterfaceLifecycle Action := ⟨step type interfaceName⟩

end InterfaceLifecycle
end HyCAN
