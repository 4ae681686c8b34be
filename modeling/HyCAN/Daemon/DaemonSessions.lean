import HyCAN.Daemon.ChannelNames
import HyCAN.Daemon.Shutdown

/-! The daemon with its session objects and their sockets, one step for each thing that
a thread does with them. What a worker reads of its session it reads through a pointer:
where the session is gone, there is no next step. -/
namespace HyCAN

open Ownership Transition

/-- The `UnixSocket` objects of the daemon by what owns them. -/
inductive SocketPlace where
  | main
  /-- The connection that a registration came on. -/
  | registration
  | session (k : Nat)
  /-- The connection that the worker of the session serves. -/
  | request (k : Nat)
  deriving DecidableEq

/-- `worker_thread` of a session. -/
inductive ThreadObject where
  | null
  | joinable
  | joined
  deriving DecidableEq

/-- A `ClientSession`. Its `socket` has a place of its own. -/
structure SessionObject where
  clientPid : Int32
  channelName : List UInt8
  workerThread : ThreadObject
  running : Bool

/-- In `client_session_worker`, or behind it. -/
inductive SessionWorkerPc where
  | testing
  | accepting
  | serving
  | left
  deriving DecidableEq

/-- From the constructor of `Daemon` to the end of the destructor. Where a session is
named it is the one that the registration has made. -/
inductive RunPc where
  | creatingMain
  | initializingMain
  | startingCleanup
  | droppingMain
  | entering
  | testing
  | accepting
  | receiving
  | locking (pid : Int32)
  | looking (pid : Int32)
  | creating (pid : Int32)
  | creatingSocket (pid : Int32) (k : Nat)
  | initializing (pid : Int32) (k : Nat)
  | storing (pid : Int32) (k : Nat)
  | dropping (k : Nat)
  | starting (pid : Int32) (k : Nat)
  | assigning (pid : Int32) (k : Nat)
  | responding
  | closing
  | cleanupLocking
  | cleaning (left : List Int32)
  | joining (pid : Int32) (left : List Int32)
  | clearing
  | returned
  | stopping (pc : StopPc)
  | destroyingSessions
  | finished
  deriving DecidableEq

/-- `main` has set `g_daemon_instance`. -/
def RunPc.instanceSet : RunPc → Bool
  | .creatingMain | .initializingMain | .startingCleanup | .droppingMain | .stopping _
  | .destroyingSessions | .finished => false
  | _ => true

inductive SweepPc where
  | testing
  | sleeping
  | locking
  | passing (left : List Int32)
  | joining (pid : Int32) (left : List Int32)
  | erasing (pid : Int32) (left : List Int32)
  | exited
  deriving DecidableEq

/-- `sessions` are the objects that exist, and `workers` the threads that were started on
them. Objects are told apart by numbers that are not used again. -/
structure DaemonSessions where
  /-- Whether `geteuid` is 0. -/
  root : Bool
  running : Bool
  cleanupJoinable : Bool
  sessionsMutex : Option DaemonThread
  clientSessions : AList fun _ : Int32 => Nat
  sessions : Nat → Option SessionObject
  nextSession : Nat
  workers : Nat → Option SessionWorkerPc
  sockets : UnixSockets SocketPlace
  runPc : RunPc
  handler : Option StopPc
  cleanupPc : Option SweepPc

/-- What the calls of the main thread give: whether the allocation, the insertion or the
creation of a thread at hand fails, the calls of a socket, the process id of a valid
request, and the order in which the table is gone through. -/
structure RunInput where
  fails : Bool
  outcome : InitializeOutcome
  accepted : Option Nat
  request : Option Int32
  order : List Int32

namespace DaemonSessions

/-- What an earlier run or another program has left at a path. -/
def leftOver (stale directory : List UInt8 → Bool) (path : List UInt8) : Option PathEntry :=
  if directory path then some .directory
  else if stale path then some .stale
  else none

/-- Before the constructor, with some descriptors of the process in use. -/
def init (root : Bool) (application : Nat → Bool) (stale directory : List UInt8 → Bool) :
    DaemonSessions where
  root := root
  running := true
  cleanupJoinable := false
  sessionsMutex := none
  clientSessions := ∅
  sessions := fun _ => none
  nextSession := 0
  workers := fun _ => none
  sockets :=
    { ledger := ⟨fun fd => if application fd then some .foreign else none, 0, fun _ => none⟩
      listening := fun _ => false
      files := leftOver stale directory
      objects := fun _ => none }
  runPc := .creatingMain
  handler := none
  cleanupPc := none

variable (s : DaemonSessions)

/-- The session that the table has for the process. -/
def stored (pid : Int32) : Option Nat :=
  s.clientSessions.lookup pid

def setSession (k : Nat) (session : SessionObject) : DaemonSessions :=
  { s with sessions := Function.update s.sessions k (some session) }

def setWorker (k : Nat) (pc : SessionWorkerPc) : DaemonSessions :=
  { s with workers := Function.update s.workers k (some pc) }

/-- The destruction of a session, with its socket. -/
def dropSession (k : Nat) : DaemonSessions :=
  { s with
    sessions := Function.update s.sessions k none
    sockets := s.sockets.reset (.session k) }

def eraseSession (pid : Int32) (k : Nat) : DaemonSessions :=
  { s.dropSession k with clientSessions := s.clientSessions.erase pid }

/-- `session->running.store(false)` -/
def tell (k : Nat) (session : SessionObject) : DaemonSessions :=
  s.setSession k { session with running := false }

/-- The join of a worker, if there is one to join. -/
def join (k : Nat) (session : SessionObject) : Option DaemonSessions :=
  if session.workerThread = .joinable then
    if s.workers k = some .left then some (s.setSession k { session with workerThread := .joined })
    else none
  else some s

/-- The object behind a pointer in the table. -/
def storedSession (pid : Int32) : Option (Nat × SessionObject) :=
  match s.stored pid with
  | none => none
  | some k => (s.sessions k).map fun session => (k, session)

/-- One step of `Daemon::stop`, and where it is then, if it has not returned. -/
def stop : StopPc → Option (Option StopPc × DaemonSessions)
  | .storing => some (some .joining, { s with running := false })
  | .joining =>
    if s.cleanupJoinable then
      if s.cleanupPc = some .exited then some (none, { s with cleanupJoinable := false }) else none
    else some (none, s)

/-- The constructor of `Daemon`. An exception in it destroys the main socket. -/
def constructorStep (input : RunInput) : Option DaemonSessions :=
  match s.runPc with
  | .creatingMain =>
    if input.fails then some { s with runPc := .finished }
    else some { s with
      sockets := s.sockets.put .main (.ofName (ascii "daemon") .server)
      runPc := .initializingMain }
  | .initializingMain =>
    match s.sockets.objects .main with
    | none => none
    | some object =>
      (s.sockets.initializeSocket .main object input.outcome).map fun (done, sockets) =>
        { s with sockets := sockets, runPc := if done then .startingCleanup else .droppingMain }
  | .startingCleanup =>
    if input.fails then some { s with runPc := .droppingMain }
    else some { s with cleanupPc := some .testing, cleanupJoinable := true, runPc := .entering }
  | .droppingMain => some { s with sockets := s.sockets.reset .main, runPc := .finished }
  | _ => none

/-- `handle_client_registration`, from the lock to the unlock. -/
def registrationStep (input : RunInput) : Option DaemonSessions :=
  match s.runPc with
  | .locking pid =>
    if s.sessionsMutex = none then
      some { s with runPc := .looking pid, sessionsMutex := some .main }
    else none
  | .looking pid =>
    some { s with runPc := if (s.stored pid).isSome then .responding else .creating pid }
  | .creating pid =>
    if input.fails then some { s with runPc := .closing, sessionsMutex := none }
    else some { s.setSession s.nextSession ⟨pid, Daemon.generateClientChannelName pid, .null, true⟩ with
      nextSession := s.nextSession + 1
      runPc := .creatingSocket pid s.nextSession }
  | .creatingSocket pid k =>
    match s.sessions k with
    | none => none
    | some session =>
      if input.fails then some { s with runPc := .dropping k }
      else some { s with
        sockets := s.sockets.put (.session k) (.ofName session.channelName .server)
        runPc := .initializing pid k }
  | .initializing pid k =>
    match s.sockets.objects (.session k) with
    | none => none
    | some object =>
      (s.sockets.initializeSocket (.session k) object input.outcome).map fun (done, sockets) =>
        { s with sockets := sockets, runPc := if done then .storing pid k else .dropping k }
  | .storing pid k =>
    if input.fails then some { s with runPc := .dropping k }
    else some { s with clientSessions := s.clientSessions.insert pid k, runPc := .starting pid k }
  | .dropping k => some { s.dropSession k with runPc := .closing, sessionsMutex := none }
  | .starting pid k =>
    -- the handler of the exception returns and leaves the session in the table
    if input.fails then some { s with runPc := .closing, sessionsMutex := none }
    else some { s.setWorker k .testing with runPc := .assigning pid k }
  | .assigning _ k =>
    match s.sessions k with
    | none => none
    | some session =>
      some { s.setSession k { session with workerThread := .joinable } with runPc := .responding }
  | .responding => some { s with runPc := .closing, sessionsMutex := none }
  | _ => none

/-- `cleanup_sessions` and `~Daemon`. The table is cleared one entry after the other. -/
def shutdownStep (input : RunInput) : Option DaemonSessions :=
  match s.runPc with
  | .cleanupLocking =>
    if s.sessionsMutex = none ∧ input.order.Perm s.clientSessions.keys then
      some { s with runPc := .cleaning input.order, sessionsMutex := some .main }
    else none
  | .cleaning [] => some { s with runPc := .clearing }
  | .cleaning (pid :: left) =>
    match s.storedSession pid with
    | none => none
    | some (k, session) => some { s.tell k session with runPc := .joining pid left }
  | .joining pid left =>
    match s.storedSession pid with
    | none => none
    | some (k, session) => (s.join k session).map fun s => { s with runPc := .cleaning left }
  | .clearing =>
    match s.clientSessions.keys with
    | [] => some { s with runPc := .returned, sessionsMutex := none }
    | pid :: _ => (s.stored pid).map fun k => s.eraseSession pid k
  | .returned => some { s with runPc := .stopping .storing }
  | .stopping pc =>
    (s.stop pc).map fun (next, s) => { s with runPc := next.elim .destroyingSessions .stopping }
  | .destroyingSessions =>
    match s.clientSessions.keys with
    | [] => some { s with runPc := .droppingMain }
    | pid :: _ => (s.stored pid).map fun k => s.eraseSession pid k
  | _ => none

/-- The loop of `run`. -/
def loopStep (input : RunInput) : Option DaemonSessions :=
  match s.runPc with
  | .entering => some { s with runPc := if s.root then .testing else .returned }
  | .testing => some { s with runPc := if s.running then .accepting else .cleanupLocking }
  | .accepting =>
    match s.sockets.objects .main with
    | none => none
    | some object =>
      (s.sockets.accept object .registration input.accepted).map fun (came, sockets) =>
        { s with sockets := sockets, runPc := if came then .receiving else .testing }
  | .receiving => some { s with runPc := input.request.elim .closing .locking }
  | .closing => some { s with sockets := s.sockets.reset .registration, runPc := .testing }
  | _ => none

/-- The main thread is in at most one of these. -/
def runStep (input : RunInput) : Option DaemonSessions :=
  (s.constructorStep input).or
    ((s.loopStep input).or ((s.registrationStep input).or (s.shutdownStep input)))

def signal : Option DaemonSessions :=
  match s.handler with
  | some _ => none
  | none => if s.runPc.instanceSet then some { s with handler := some .storing } else some s

def handlerStep : Option DaemonSessions :=
  match s.handler with
  | none => none
  | some pc => (s.stop pc).map fun (next, s) => { s with handler := next }

/-- `session_cleanup_worker`, given the order of the table and whether the session at hand
is that of a dead process or has timed out. -/
def cleanupStep (order : List Int32) (expired : Bool) : Option DaemonSessions :=
  match s.cleanupPc with
  | none | some .exited => none
  | some .testing => some { s with cleanupPc := if s.running then some .sleeping else some .exited }
  | some .sleeping => some { s with cleanupPc := some .locking }
  | some .locking =>
    if s.sessionsMutex = none ∧ order.Perm s.clientSessions.keys then
      some { s with cleanupPc := some (.passing order), sessionsMutex := some .cleanup }
    else none
  | some (.passing []) => some { s with cleanupPc := some .testing, sessionsMutex := none }
  | some (.passing (pid :: left)) =>
    match s.storedSession pid with
    | none => none
    | some (k, session) =>
      if expired then some { s.tell k session with cleanupPc := some (.joining pid left) }
      else some { s with cleanupPc := some (.passing left) }
  | some (.joining pid left) =>
    match s.storedSession pid with
    | none => none
    | some (k, session) =>
      (s.join k session).map fun s => { s with cleanupPc := some (.erasing pid left) }
  | some (.erasing pid left) =>
    (s.stored pid).map fun k => { s.eraseSession pid k with cleanupPc := some (.passing left) }

/-- `client_session_worker`. What it receives and sends does not matter here. -/
def workerStep (k : Nat) (accepted : Option Nat) : Option DaemonSessions :=
  match s.sessions k with
  | none => none
  | some session =>
    match s.workers k with
    | none | some .left => none
    | some .testing => some (s.setWorker k (if session.running && s.running then .accepting else .left))
    | some .accepting =>
      match s.sockets.objects (.session k) with
      | none => none
      | some object =>
        (s.sockets.accept object (.request k) accepted).map fun (came, sockets) =>
          { s.setWorker k (if came then .serving else .testing) with sockets := sockets }
    | some .serving => some { s.setWorker k .testing with sockets := s.sockets.reset (.request k) }

inductive Action where
  | main (input : RunInput)
  | signal
  | handler
  | cleanup (order : List Int32) (expired : Bool)
  | worker (k : Nat) (accepted : Option Nat)
  /-- Descriptors that are no `UnixSocket`'s. -/
  | openForeign (fd : Nat)
  | closeForeign (fd : Nat)

def step (s : DaemonSessions) : Action → Option DaemonSessions
  | .main input => if s.handler = none then s.runStep input else none
  | .signal => s.signal
  | .handler => s.handlerStep
  | .cleanup order expired => s.cleanupStep order expired
  | .worker k accepted => s.workerStep k accepted
  | .openForeign fd =>
    if s.sockets.ledger.openings fd = none then
      some { s with sockets := { s.sockets with ledger := s.sockets.ledger.openForeign fd } }
    else none
  | .closeForeign fd =>
    if s.sockets.ledger.openings fd = some .foreign then
      some { s with sockets := { s.sockets with ledger := s.sockets.ledger.close fd } }
    else none

def machine : Machine DaemonSessions Action := ⟨step⟩

end DaemonSessions
end HyCAN
