import HyCAN.Daemon.UnixSocket
import HyCAN.Text.Decimal
import HyCAN.Transition.Machine
import Mathlib.Data.List.AList

/-! The daemon's client sessions. A registration and a clean-up pass hold
`sessions_mutex_` from beginning to end, and nothing else touches the table, so
each of them is one step. Times are in nanoseconds. -/
namespace HyCAN

/-- One server socket is told from another by a number. -/
structure ClientSession where
  clientPid : Int32
  channelName : List UInt8
  socket : Option Nat
  /-- Whether the worker thread has been created. -/
  workerThread : Bool
  lastActivity : Nat
  running : Bool

/-- `sockets` is the file system's part of it: the server socket at each path.
Until `cleanupWake` the clean-up thread is asleep. -/
structure Daemon where
  clientSessions : AList fun _ : Int32 => ClientSession
  sockets : List UInt8 → Option Nat
  nextSocket : Nat
  now : Nat
  cleanupWake : Nat

/-- The step of `handle_client_registration` that fails for a new client. All but
the first, which comes before the `try`, end in its handlers. -/
inductive RegistrationFault where
  | sessionAlloc
  | socketAlloc
  | initializeFails
  | insert
  | threadCreation
  deriving DecidableEq

structure RegistrationFaults where
  creation : Option RegistrationFault
  sendFails : Bool

def second : Nat := 1000000000

def cleanupInterval : Nat := 30 * second

def sessionTimeout : Nat := 5 * 60 * second

namespace Daemon

def init : Daemon where
  clientSessions := ∅
  sockets := fun _ => none
  nextSocket := 0
  now := 0
  cleanupWake := cleanupInterval

def generateClientChannelName (pid : Int32) : List UInt8 :=
  ascii "HyCAN_Client_" ++ Decimal.text pid.toInt

/-- `UnixSocket::initialize` for a server: whatever was at the path is removed
first, and on a failure nothing is there afterwards. -/
def initializeSocket (daemon : Daemon) (name : List UInt8) (fails : Bool) : Option Nat × Daemon :=
  if fails ∨ 108 ≤ (socketPath name).length then
    (none, { daemon with sockets := Function.update daemon.sockets (socketPath name) none })
  else
    (some daemon.nextSocket, { daemon with
      sockets := Function.update daemon.sockets (socketPath name) (some daemon.nextSocket)
      nextSocket := daemon.nextSocket + 1 })

/-- The destruction of a session closes its socket, and that removes the path. -/
def closeSession (daemon : Daemon) (session : ClientSession) : Daemon :=
  match session.socket with
  | none => daemon
  | some _ =>
    { daemon with sockets := Function.update daemon.sockets (socketPath session.channelName) none }

def storeSession (daemon : Daemon) (pid : Int32) (session : ClientSession) : Daemon :=
  { daemon with clientSessions := daemon.clientSessions.insert pid session }

/-- The branch for a new client, and whether it gets as far as the response. -/
def createSession (daemon : Daemon) (pid : Int32) (fault : Option RegistrationFault) :
    Bool × Daemon :=
  let session : ClientSession :=
    ⟨pid, generateClientChannelName pid, none, false, daemon.now, true⟩
  if fault = some .sessionAlloc ∨ fault = some .socketAlloc then (false, daemon)
  else match daemon.initializeSocket session.channelName (fault = some .initializeFails) with
    | (none, daemon) => (false, daemon)
    | (some socket, daemon) =>
      let session := { session with socket := some socket }
      if fault = some .insert then (false, daemon.closeSession session)
      else
        let daemon := daemon.storeSession pid session
        -- the handler returns and leaves the session in the table
        if fault = some .threadCreation then (false, daemon)
        else (true, daemon.storeSession pid { session with workerThread := true })

/-- The response, if it is sent. -/
def registerResponse (daemon : Daemon) (pid : Int32) (sendFails : Bool) :
    Option ClientRegisterResponse :=
  match daemon.clientSessions.lookup pid with
  | none => none
  | some session => if sendFails then none else some (.of 0 session.channelName)

def handleClientRegistration (daemon : Daemon) (pid : Int32) (faults : RegistrationFaults) :
    Option ClientRegisterResponse × Daemon :=
  match daemon.clientSessions.lookup pid with
  | some session =>
    let daemon := daemon.storeSession pid { session with lastActivity := daemon.now }
    (daemon.registerResponse pid faults.sendFails, daemon)
  | none =>
    match daemon.createSession pid faults.creation with
    | (false, daemon) => (none, daemon)
    | (true, daemon) => (daemon.registerResponse pid faults.sendFails, daemon)

/-- `client_session_worker` has received a request. -/
def serveRequest (daemon : Daemon) (pid : Int32) : Option Daemon :=
  match daemon.clientSessions.lookup pid with
  | none => none
  | some session =>
    if session.workerThread ∧ session.running then
      some (daemon.storeSession pid { session with lastActivity := daemon.now })
    else none

/-- The test of the clean-up pass, given which processes are alive. -/
def expired (daemon : Daemon) (alive : Int32 → Bool) (session : ClientSession) : Bool :=
  !alive session.clientPid || daemon.now - session.lastActivity > sessionTimeout

/-- One entry in the loop of the clean-up pass. -/
def cleanupSession (alive : Int32 → Bool) (daemon : Daemon) (pid : Int32) : Daemon :=
  match daemon.clientSessions.lookup pid with
  | none => daemon
  | some session =>
    if daemon.expired alive session then
      { daemon.closeSession session with clientSessions := daemon.clientSessions.erase pid }
    else daemon

/-- A pass of `session_cleanup_worker`. -/
def cleanupPass (daemon : Daemon) (alive : Int32 → Bool) : Daemon :=
  daemon.clientSessions.keys.foldl (cleanupSession alive) daemon

inductive Action where
  | register (pid : Int32) (faults : RegistrationFaults)
  | serve (pid : Int32)
  | cleanup (alive : Int32 → Bool)
  | pass (duration : Nat)

def step (daemon : Daemon) : Action → Option Daemon
  | .register pid faults => some (daemon.handleClientRegistration pid faults).2
  | .serve pid => daemon.serveRequest pid
  | .cleanup alive =>
    if daemon.cleanupWake ≤ daemon.now then
      some { daemon.cleanupPass alive with cleanupWake := daemon.now + cleanupInterval }
    else none
  | .pass duration => some { daemon with now := daemon.now + duration }

def machine : Transition.Machine Daemon Action := ⟨step⟩

end Daemon
end HyCAN
