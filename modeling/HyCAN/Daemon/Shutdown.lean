import HyCAN.Transition.Machine
import HyCAN.Transition.WaitGraph
import Mathlib.Logic.Function.Basic

/-! The threads of the daemon at the granularity of their locks and joins. A signal
puts `Daemon::stop` on top of whatever the main thread was doing: until the
handler has returned, the main thread takes no step of its own. The locks inside the
standard streams and the allocator are left out. -/
namespace HyCAN

open Transition

/-- The worker of a session is named by the process id of its client. -/
inductive DaemonThread where
  | main
  | cleanup
  | worker (pid : Int32)
  deriving DecidableEq

/-- `sessions_mutex_`, and the `mutex_` of the `NetlinkManager`. -/
inductive DaemonLock where
  | sessions
  | manager
  deriving DecidableEq

/-- In `Daemon::stop`, before the store and before the test of `joinable`. -/
inductive StopPc where
  | storing
  | joining
  deriving DecidableEq

/-- From `run` to the end of `~Daemon`. -/
inductive MainPc where
  | entering
  | testing
  | accepting
  | locking (pid : Int32)
  | registering (pid : Int32)
  | responding
  | cleanupLocking
  | cleaning (left : List Int32)
  | joiningWorker (pid : Int32) (left : List Int32)
  | returned
  | destroying (pc : StopPc)
  | finished
  deriving DecidableEq

/-- The handler does nothing once `main` has reset `g_daemon_instance`. -/
def MainPc.instanceSet : MainPc → Bool
  | .destroying _ | .finished => false
  | _ => true

inductive CleanupPc where
  | testing
  | sleeping
  | locking
  | passing (left : List Int32)
  | joiningWorker (pid : Int32) (left : List Int32)
  | exited
  deriving DecidableEq

/-- A worker that was never created counts as one that has exited. -/
inductive WorkerPc where
  | testing
  | accepting
  | locking
  | processing
  | sending
  | exited
  deriving DecidableEq

structure DaemonThreads where
  /-- Whether `geteuid` is 0. -/
  root : Bool
  running : Bool
  cleanupJoinable : Bool
  sessionsMutex : Option DaemonThread
  managerMutex : Option DaemonThread
  mainPc : MainPc
  handler : Option StopPc
  cleanupPc : CleanupPc
  /-- The keys of `client_sessions_`. -/
  sessions : List Int32
  /-- The flag `running` of the session. -/
  active : Int32 → Bool
  workers : Int32 → WorkerPc

/-- What comes from outside: a registration request that arrives before the timeouts,
and whether its handling stores a session, with or without a thread. -/
structure MainInput where
  request : Option Int32
  created : Option Bool

namespace DaemonThreads

def init (root : Bool) : DaemonThreads where
  root := root
  running := true
  cleanupJoinable := true
  sessionsMutex := none
  managerMutex := none
  mainPc := .entering
  handler := none
  cleanupPc := .testing
  sessions := []
  active := fun _ => false
  workers := fun _ => .exited

/-- One step of `Daemon::stop`, and where it is then, if it has not returned. -/
def stop (s : DaemonThreads) : StopPc → Option (Option StopPc × DaemonThreads)
  | .storing => some (some .joining, { s with running := false })
  | .joining =>
    if s.cleanupJoinable then
      if s.cleanupPc = .exited then some (none, { s with cleanupJoinable := false }) else none
    else some (none, s)

/-- The body of `handle_client_registration` up to its response. -/
def register (s : DaemonThreads) (pid : Int32) (created : Option Bool) : DaemonThreads :=
  if pid ∈ s.sessions then s
  else match created with
    | none => s
    | some thread => { s with
        sessions := s.sessions ++ [pid]
        active := Function.update s.active pid true
        workers := Function.update s.workers pid (if thread then .testing else .exited) }

def mainStep (s : DaemonThreads) (input : MainInput) : Option DaemonThreads :=
  match s.mainPc with
  | .entering => some { s with mainPc := if s.root then .testing else .returned }
  | .testing => some { s with mainPc := if s.running then .accepting else .cleanupLocking }
  | .accepting =>
    match input.request with
    | none => some { s with mainPc := .testing }
    | some pid => some { s with mainPc := .locking pid }
  | .locking pid =>
    if s.sessionsMutex = none then
      some { s with mainPc := .registering pid, sessionsMutex := some .main }
    else none
  | .registering pid => some { s.register pid input.created with mainPc := .responding }
  | .responding => some { s with mainPc := .testing, sessionsMutex := none }
  | .cleanupLocking =>
    if s.sessionsMutex = none then
      some { s with mainPc := .cleaning s.sessions, sessionsMutex := some .main }
    else none
  | .cleaning [] => some { s with mainPc := .returned, sessionsMutex := none, sessions := [] }
  | .cleaning (pid :: left) =>
    some { s with mainPc := .joiningWorker pid left, active := Function.update s.active pid false }
  | .joiningWorker pid left =>
    if s.workers pid = .exited then some { s with mainPc := .cleaning left } else none
  | .returned => some { s with mainPc := .destroying .storing }
  | .destroying pc =>
    (s.stop pc).map fun (next, s) => { s with mainPc := next.elim .finished .destroying }
  | .finished => none

def signal (s : DaemonThreads) : Option DaemonThreads :=
  match s.handler with
  | some _ => none
  | none => if s.mainPc.instanceSet then some { s with handler := some .storing } else some s

def handlerStep (s : DaemonThreads) : Option DaemonThreads :=
  match s.handler with
  | none => none
  | some pc => (s.stop pc).map fun (next, s) => { s with handler := next }

/-- `session_cleanup_worker`, given whether the test of the session at hand finds
it dead or timed out. -/
def cleanupStep (s : DaemonThreads) (expired : Bool) : Option DaemonThreads :=
  match s.cleanupPc with
  | .testing => some { s with cleanupPc := if s.running then .sleeping else .exited }
  -- `running_` is not tested again after the sleep
  | .sleeping => some { s with cleanupPc := .locking }
  | .locking =>
    if s.sessionsMutex = none then
      some { s with cleanupPc := .passing s.sessions, sessionsMutex := some .cleanup }
    else none
  | .passing [] => some { s with cleanupPc := .testing, sessionsMutex := none }
  | .passing (pid :: left) =>
    if expired then
      some { s with
        cleanupPc := .joiningWorker pid left
        active := Function.update s.active pid false }
    else some { s with cleanupPc := .passing left }
  | .joiningWorker pid left =>
    if s.workers pid = .exited then
      some { s with cleanupPc := .passing left, sessions := s.sessions.erase pid }
    else none
  | .exited => none

def setWorker (s : DaemonThreads) (pid : Int32) (pc : WorkerPc) : DaemonThreads :=
  { s with workers := Function.update s.workers pid pc }

/-- `client_session_worker`, given whether a request comes before the timeouts. -/
def workerStep (s : DaemonThreads) (pid : Int32) (request : Bool) : Option DaemonThreads :=
  match s.workers pid with
  | .testing => some (s.setWorker pid (if s.active pid && s.running then .accepting else .exited))
  | .accepting => some (s.setWorker pid (if request then .locking else .testing))
  | .locking =>
    if s.managerMutex = none then
      some { s.setWorker pid .processing with managerMutex := some (.worker pid) }
    else none
  | .processing => some { s.setWorker pid .sending with managerMutex := none }
  | .sending => some (s.setWorker pid .testing)
  | .exited => none

inductive Action where
  | signal
  | handler
  | main (input : MainInput)
  | cleanup (expired : Bool)
  | worker (pid : Int32) (request : Bool)

def step (s : DaemonThreads) : Action → Option DaemonThreads
  | .signal => s.signal
  | .handler => s.handlerStep
  | .main input => if s.handler = none then s.mainStep input else none
  | .cleanup expired => s.cleanupStep expired
  | .worker pid request => s.workerStep pid request

def machine : Machine DaemonThreads Action := ⟨step⟩

def stopBlockedOn (s : DaemonThreads) : StopPc → Option (Blocker DaemonThread DaemonLock)
  | .storing => none
  | .joining => if s.cleanupJoinable then some (.join .cleanup) else none

def codeBlockedOn (s : DaemonThreads) : MainPc → Option (Blocker DaemonThread DaemonLock)
  | .locking _ | .cleanupLocking => some (.lock .sessions)
  | .joiningWorker pid _ => some (.join (.worker pid))
  | .destroying pc => s.stopBlockedOn pc
  | .entering | .testing | .accepting | .registering _ | .responding | .cleaning _ | .returned
  | .finished => none

/-- What the main thread waits for. The handler comes before the code it interrupts. -/
def mainBlockedOn (s : DaemonThreads) : Option (Blocker DaemonThread DaemonLock) :=
  match s.handler with
  | some pc => s.stopBlockedOn pc
  | none => s.codeBlockedOn s.mainPc

def cleanupBlockedOn (s : DaemonThreads) : Option (Blocker DaemonThread DaemonLock) :=
  match s.cleanupPc with
  | .locking => some (.lock .sessions)
  | .joiningWorker pid _ => some (.join (.worker pid))
  | _ => none

def waitGraph (s : DaemonThreads) : WaitGraph DaemonThread DaemonLock where
  blockedOn
    | .main => s.mainBlockedOn
    | .cleanup => s.cleanupBlockedOn
    | .worker pid => if s.workers pid = .locking then some (.lock .manager) else none
  owner
    | .sessions => s.sessionsMutex
    | .manager => s.managerMutex
  ended
    | .main => s.mainPc = .finished
    | .cleanup => s.cleanupPc = .exited
    | .worker pid => s.workers pid = .exited

def Deadlocked (s : DaemonThreads) : Prop :=
  s.waitGraph.Deadlocked

end DaemonThreads
end HyCAN
