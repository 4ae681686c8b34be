import HyCAN.Interface.CanSockets
import HyCAN.Transition.Machine
import Mathlib.Data.List.Perm.Basic

/-! `Dispatcher` as a machine of atomic steps. One controller thread calls
`start` and `stop`, any number of threads call `register_func`, the reaper runs
`reap_process`, and the kernel delivers frames and socket errors. Each step is
one system call, one atomic operation on `lock_`, or one access to `funcs`. -/
namespace HyCAN

/-- `HC_MAX_STD_CAN_ID`, which the build sets to `MAX_STD_CAN_ID`. -/
def maxStdCanId : Nat := 2048

/-- `funcs`; an entry is `none` while its `std::function` is empty. -/
abbrev CallbackTable (Func : Type) := Vector (Option Func) maxStdCanId

/-- Where the reaper is inside `reap_process`. The lists are the part of the
batch that the `for` loop has not reached yet. -/
inductive ReaperPc where
  | waiting
  | scanning (events : List EpollEvent)
  | reading (event : EpollEvent) (events : List EpollEvent)
  /-- In a read of a blocking socket. -/
  | asleep (fd : Fd) (events : List EpollEvent)
  | holding (fd : Fd) (frame : CanFrame) (events : List EpollEvent)
  | locked (fd : Fd) (frame : CanFrame) (events : List EpollEvent)
  | unlocking (events : List EpollEvent)
  /-- The lookup indexed outside `funcs`; nothing is known of the thread any more. -/
  | fault (events : List EpollEvent)
  | exited
  deriving DecidableEq

structure Reaper where
  stopRequested : Bool
  pc : ReaperPc
  deriving DecidableEq

/-- Where the controller is inside `start` or `stop`. -/
inductive ControllerPc where
  | idle
  | connecting
  | binding
  | unblocking
  | adding
  | flushing
  | spawning
  | writing
  | joining
  deriving DecidableEq

/-- Where a thread is inside `register_func`, with the identifiers its loop has
still to visit, in the order of the `std::set`. -/
inductive RegisterPc (Func : Type) where
  | idle
  | locking (ids : List Nat) (func : Func)
  | looping (ids : List Nat) (func : Func)

/-- What an observer of the table, of the CAN socket and of the callbacks sees. -/
inductive Observation (Func : Type) where
  | registered (id : Nat) (func : Func)
  | received (frame : CanFrame)
  | lookedUp
  | invoked (func : Func) (frame : CanFrame)

/-- The callback invocations, with the frames they got. -/
def invocations {Func : Type} (log : List (Observation Func)) : List (Func × CanFrame) :=
  log.filterMap fun
    | .invoked func frame => some (func, frame)
    | _ => none

section Invocations

variable {Func : Type} (func : Func) (frame : CanFrame) (id : Nat)

@[simp] theorem invocations_nil : invocations ([] : List (Observation Func)) = [] := rfl

@[simp] theorem invocations_append (log more : List (Observation Func)) :
    invocations (log ++ more) = invocations log ++ invocations more :=
  List.filterMap_append

@[simp] theorem invocations_registered : invocations [.registered id func] = [] := rfl
@[simp] theorem invocations_received : invocations ([.received frame] : List (Observation Func)) = [] := rfl
@[simp] theorem invocations_lookedUp : invocations ([.lookedUp] : List (Observation Func)) = [] := rfl
@[simp] theorem invocations_invoked :
    invocations [.lookedUp, .invoked func frame] = [(func, frame)] := rfl

end Invocations

structure Dispatcher (Tid Func : Type) where
  threadEventFd : Fd
  funcs : CallbackTable Func
  lock : Bool
  counter : Nat
  sockets : CanSockets
  /-- `none` while `reap_thread` is not joinable. -/
  reapThread : Option Reaper
  controller : ControllerPc
  registrars : Tid → RegisterPc Func
  log : List (Observation Func)

namespace Dispatcher

variable {Tid Func : Type}

/-- The constructed dispatcher: `thread_event_fd` is in the epoll set, and there
is neither a CAN socket nor a thread. -/
def init (threadEventFd : Fd) : Dispatcher Tid Func where
  threadEventFd := threadEventFd
  funcs := Vector.replicate maxStdCanId none
  lock := false
  counter := 0
  sockets := fun _ => none
  reapThread := none
  controller := .idle
  registrars := fun _ => .idle
  log := []

def observe (s : Dispatcher Tid Func) (events : List (Observation Func)) : Dispatcher Tid Func :=
  { s with log := s.log ++ events }

def moveReaper (s : Dispatcher Tid Func) (reaper : Reaper) (pc : ReaperPc) : Dispatcher Tid Func :=
  { s with reapThread := some { reaper with pc } }

/-- All that `epoll_wait` can report. With three descriptors in the set a batch
never fills the 2048 elements of the array. -/
def readyEvents (s : Dispatcher Tid Func) : List EpollEvent :=
  (if s.counter ≠ 0 then [⟨s.threadEventFd, true, false⟩] else []) ++
    ((s.sockets .current).map CanSocket.ready).getD [] ++
    ((s.sockets .leftover).map CanSocket.ready).getD []

/-- A read of the reaper from a socket has returned. -/
def takeRead (s : Dispatcher Tid Func) (reaper : Reaper) (fd : Fd) (events : List EpollEvent) :
    Option CanFrame → Dispatcher Tid Func
  | none => s.moveReaper reaper (.scanning events)
  | some frame => (s.observe [.received frame]).moveReaper reaper (.holding fd frame events)

inductive ReapAction where
  | epollWait (events : List EpollEvent)
  | interrupted
  | waitFailed
  | test
  | read
  | wake (place : CanSocketPlace)
  | lock
  | dispatch
  | unlock

/-- One step of `reap_process`. The eventfd is blocking, so its read has no result
while the counter is zero. -/
def reapProcess (s : Dispatcher Tid Func) (reaper : Reaper) (action : ReapAction) :
    Option (Dispatcher Tid Func) :=
  match reaper.pc, action with
  | .waiting, .epollWait events =>
    if events ≠ [] ∧ events.Perm s.readyEvents then some (s.moveReaper reaper (.scanning events))
    else none
  -- EAGAIN, EWOULDBLOCK or EINTR
  | .waiting, .interrupted =>
    some (s.moveReaper reaper (if reaper.stopRequested then .exited else .waiting))
  -- any other errno; without a stop request the exception ends the process
  | .waiting, .waitFailed =>
    if reaper.stopRequested then some (s.moveReaper reaper .exited) else none
  | .scanning [], .test => some (s.moveReaper reaper .waiting)
  | .scanning (event :: events), .test =>
    if event.fd = s.threadEventFd ∧ reaper.stopRequested then some (s.moveReaper reaper .exited)
    else some (s.moveReaper reaper (.reading event events))
  | .reading event events, .read =>
    if event.epollIn then
      if event.fd = s.threadEventFd then
        if s.counter = 0 then none
        else some ({ s with counter := 0 }.moveReaper reaper
          (.holding event.fd (CanFrame.ofCounter s.counter) events))
      else match s.sockets.placeOf event.fd with
        -- EBADF
        | none => some (s.moveReaper reaper (.scanning events))
        | some place => (s.sockets place).map fun socket => match socket.read with
          | some (frame, rest) =>
            { s with sockets := s.sockets.set place (some rest) }.takeRead reaper event.fd events frame
          | none =>
            { s with sockets := s.sockets.set place (some { socket with sleeping := true }) }.moveReaper
              reaper (.asleep event.fd events)
    else some (s.moveReaper reaper (.scanning events))
  | .asleep fd events, .wake place =>
    match s.sockets place with
    | none => none
    | some socket =>
      if socket.sleeping then socket.take.map fun (frame, rest) =>
        { s with sockets := s.sockets.woken place rest }.takeRead reaper fd events frame
      else none
  | .holding fd frame events, .lock =>
    if s.lock then none
    else some ({ s with lock := true }.moveReaper reaper (.locked fd frame events))
  | .locked _ frame events, .dispatch =>
    match s.funcs[frame.canId.toNat]? with
    | none => some (s.moveReaper reaper (.fault events))
    | some none => some ((s.observe [.lookedUp]).moveReaper reaper (.unlocking events))
    | some (some func) =>
      some ((s.observe [.lookedUp, .invoked func frame]).moveReaper reaper (.unlocking events))
  | .unlocking events, .unlock =>
    some ({ s with lock := false }.moveReaper reaper (.scanning events))
  | _, _ => none

inductive RegisterAction (Func : Type) where
  | call (ids : List Nat) (func : Func)
  | lock
  | next (copied : Bool)
  | unlock

/-- One step of `register_func`. `next` is one iteration of its loop; copying
the `std::function` into the table may throw. -/
def registerFunc [DecidableEq Tid] (s : Dispatcher Tid Func) (tid : Tid) (action : RegisterAction Func) :
    Option (Dispatcher Tid Func) :=
  match s.registrars tid, action with
  | .idle, .call ids func =>
    some { s with registrars := Function.update s.registrars tid (.locking ids func) }
  | .locking ids func, .lock =>
    if s.lock then none
    else some { s with
      lock := true, registrars := Function.update s.registrars tid (.looping ids func) }
  | .looping (id :: ids) func, .next copied =>
    -- the error return and the exception both leave `lock_` as it is
    if maxStdCanId ≤ id ∨ copied = false then
      some { s with registrars := Function.update s.registrars tid .idle }
    else
      some ({ s with
        funcs := s.funcs.setIfInBounds id (some func)
        registrars := Function.update s.registrars tid (.looping ids func) }.observe
          [.registered id func])
  | .looping [] _, .unlock =>
    some { s with lock := false, registrars := Function.update s.registrars tid .idle }
  | _, _ => none

inductive StartAction where
  | call
  | socket (fd : Fd)
  | socketFail
  | bind
  | bindFail
  | setNonblocking
  | epollAdd
  | epollAddFail
  | flush
  | flushFail
  | spawn

/-- One step of `start`: `ensure_connected` lets go of the old socket, opens a new one,
binds it and makes it nonblocking, then the socket joins the epoll set, is flushed frame
by frame, and the thread is created unless one is joinable. -/
def start (s : Dispatcher Tid Func) (action : StartAction) : Option (Dispatcher Tid Func) :=
  match s.controller, action with
  | .idle, .call => some { s with sockets := s.sockets.release, controller := .connecting }
  | .connecting, .socket fd =>
    if fd = s.threadEventFd ∨ (s.sockets .leftover).any (·.fd = fd) then none
    else some { s with sockets := s.sockets.set .current (some (.opened fd)), controller := .binding }
  | .connecting, .socketFail => some { s with controller := .idle }
  | .binding, .bind =>
    some { s with
      sockets := s.sockets.modify fun socket => { socket with bound := true }
      controller := .unblocking }
  -- the look-up of the link has failed, or the call of `bind`
  | .binding, .bindFail => some { s with sockets := s.sockets.close, controller := .idle }
  | .unblocking, .setNonblocking =>
    some { s with
      sockets := s.sockets.modify fun socket => { socket with nonblocking := true }
      controller := .adding }
  | .adding, .epollAdd =>
    some { s with
      sockets := s.sockets.modify fun socket => { socket with polled := true }
      controller := .flushing }
  | .adding, .epollAddFail => some { s with controller := .idle }
  | .flushing, .flush =>
    match s.sockets .current with
    | none => none
    | some socket =>
      match socket.read with
      | none => none
      | some (some _, rest) => some { s with sockets := s.sockets.set .current (some rest) }
      -- EAGAIN and ENETDOWN both end the loop
      | some (none, rest) =>
        some { s with sockets := s.sockets.set .current (some rest), controller := .spawning }
  -- any other error, which the read has cleared
  | .flushing, .flushFail =>
    some { s with
      sockets := s.sockets.modify fun socket => { socket with error := false }
      controller := .idle }
  | .spawning, .spawn =>
    match s.reapThread with
    | some _ => some { s with controller := .idle }
    | none => some { s with reapThread := some ⟨false, .waiting⟩, controller := .idle }
  | _, _ => none

inductive StopAction where
  | call
  | write
  | writeFail
  | join

/-- One step of `stop`: request the stop, add one to the eventfd counter, and
join. The counter of an eventfd cannot exceed `2 ^ 64 - 2`. -/
def stop (s : Dispatcher Tid Func) (action : StopAction) : Option (Dispatcher Tid Func) :=
  match s.controller, action with
  | .idle, .call =>
    match s.reapThread with
    | none => some s
    | some reaper => some { s with
        reapThread := some { reaper with stopRequested := true }, controller := .writing }
  | .writing, .write =>
    if s.counter + 1 < 2 ^ 64 - 1 then
      some { s with counter := s.counter + 1, controller := .joining }
    else none
  | .writing, .writeFail => some { s with controller := .idle }
  | .joining, .join =>
    match s.reapThread with
    | some ⟨_, .exited⟩ => some { s with reapThread := none, controller := .idle }
    | _ => none
  | _, _ => none

inductive KernelAction where
  | arrive (place : CanSocketPlace) (frame : CanFrame)
  | fail (place : CanSocketPlace)

/-- The bus puts a frame on a socket that is bound, or a network event sets its error. -/
def kernel (s : Dispatcher Tid Func) : KernelAction → Option (Dispatcher Tid Func)
  | .arrive place frame =>
    match s.sockets place with
    | none => none
    | some socket =>
      if socket.bound then
        some { s with sockets := s.sockets.set place (some { socket with queue := socket.queue ++ [frame] }) }
      else none
  | .fail place =>
    match s.sockets place with
    | none => none
    | some socket =>
      if socket.bound then
        some { s with sockets := s.sockets.set place (some { socket with error := true }) }
      else none

inductive Action (Tid Func : Type) where
  | reap (action : ReapAction)
  | register (tid : Tid) (action : RegisterAction Func)
  | start (action : StartAction)
  | stop (action : StopAction)
  | kernel (action : KernelAction)

/-- A `start` in which nothing fails, and no frame has come by the time of the flush. -/
def smoothStart (fd : Fd) : List (Action Tid Func) :=
  [.start .call, .start (.socket fd), .start .bind, .start .setNonblocking, .start .epollAdd,
    .start .flush, .start .spawn]

/-- Any thread, or the kernel, takes its next step. -/
def machine (Tid Func : Type) [DecidableEq Tid] :
    Transition.Machine (Dispatcher Tid Func) (Action Tid Func) where
  step s
    | .reap action => s.reapThread.bind fun reaper => s.reapProcess reaper action
    | .register tid action => s.registerFunc tid action
    | .start action => s.start action
    | .stop action => s.stop action
    | .kernel action => s.kernel action

end Dispatcher
end HyCAN
