import HyCAN.Daemon.Session
import HyCAN.Daemon.Wire

/-! All requests of all client threads, the workers of their sessions and the clean-up.
What crosses a connection is bytes; either side may read them in parts, give up, or be
slow. The session table and the server sockets are those of the daemon's own model. -/
namespace HyCAN

open NetlinkManager Transition

/-- The daemon's end of a connection. -/
inductive Stage where
  | queued
  | accepted
  | received (request : NetlinkRequest)
  | processed (response : StoredResponse)
  | closed

/-- The connection of one call of `send_request`, and the bytes on their way. -/
structure Connection where
  request : NetlinkRequest
  toDaemon : List UInt8
  toClient : List UInt8
  stage : Stage

/-- Where a client thread is in `send_request`; each call has a number. -/
inductive ThreadPc where
  | idle
  | calling (call : Nat) (request : NetlinkRequest)
  | connected (call : Nat) (request : NetlinkRequest)
  | waiting (call : Nat) (request : NetlinkRequest)

def ThreadPc.call : ThreadPc → Option Nat
  | idle => none
  | calling call _ | connected call _ | waiting call _ => some call

/-- A request with a response, and the call it belongs to. -/
structure Answered where
  call : Nat
  request : NetlinkRequest
  response : NetlinkResponse

/-- `backlog` and `worker` go by the number of the server socket. `handed` is what
`process_request` has been given and has computed, `returned` what `send_request` has
returned to its callers. -/
structure RequestTraffic where
  daemon : Daemon
  manager : NetlinkManager
  nextCall : Nat
  threads : Nat → ThreadPc
  connections : Nat → Option Connection
  backlog : Nat → List Nat
  worker : Nat → Option Nat
  handed : List Answered
  returned : List Answered

namespace RequestTraffic

inductive Action where
  | daemon (action : Daemon.Action)
  | call (thread : Nat) (request : NetlinkRequest)
  /-- `path` is where the process believes its channel to be. -/
  | connect (thread : Nat) (path : List UInt8)
  | send (thread : Nat) (padding : List UInt8) (count : Nat)
  | receive (thread : Nat) (count : Nat)
  /-- `send_request` returns an error, of whatever kind. -/
  | fail (thread : Nat)
  | accept (pid : Int32)
  | read (pid : Int32) (count : Nat)
  | process (pid : Int32) (after : List UInt8) (faults : RequestFaults)
  | respond (pid : Int32) (padding : List UInt8) (count : Nat)
  /-- The worker closes the connection: a time-out, an error or an exception. -/
  | giveUp (pid : Int32)

/-- The server socket of a session that has its worker running. -/
def serverSocket (traffic : RequestTraffic) (pid : Int32) : Option Nat :=
  match traffic.daemon.clientSessions.lookup pid with
  | none => none
  | some session => if session.workerThread ∧ session.running then session.socket else none

/-- The call whose connection the worker holds. -/
def inHand (traffic : RequestTraffic) (pid : Int32) : Option (Nat × Nat × Connection) :=
  (traffic.serverSocket pid).bind fun socket => (traffic.worker socket).bind fun call =>
    (traffic.connections call).map fun connection => (socket, call, connection)

/-- A session that is cleaned up has had its worker joined. -/
def workersJoined (traffic : RequestTraffic) (after : Daemon) : Bool :=
  traffic.daemon.clientSessions.keys.all fun pid =>
    match traffic.daemon.clientSessions.lookup pid, after.clientSessions.lookup pid with
    | some session, none => session.socket.all fun socket => (traffic.worker socket).isNone
    | _, _ => true

def setConnection (traffic : RequestTraffic) (call : Nat) (connection : Connection) : RequestTraffic :=
  { traffic with connections := Function.update traffic.connections call (some connection) }

def setThread (traffic : RequestTraffic) (thread : Nat) (pc : ThreadPc) : RequestTraffic :=
  { traffic with threads := Function.update traffic.threads thread pc }

def setWorker (traffic : RequestTraffic) (socket : Nat) (call : Option Nat) : RequestTraffic :=
  { traffic with worker := Function.update traffic.worker socket call }

section Update

variable (traffic : RequestTraffic) {thread other call : Nat} (pc : ThreadPc) (connection : Connection)

@[simp] theorem connections_setConnection_self :
    (traffic.setConnection call connection).connections call = some connection :=
  Function.update_self _ _ _

theorem connections_setConnection_of_ne (h : other ≠ call) :
    (traffic.setConnection call connection).connections other = traffic.connections other :=
  Function.update_of_ne h _ _

@[simp] theorem threads_setThread_self : (traffic.setThread thread pc).threads thread = pc :=
  Function.update_self _ _ _

theorem threads_setThread_of_ne (h : other ≠ thread) :
    (traffic.setThread thread pc).threads other = traffic.threads other :=
  Function.update_of_ne h _ _

end Update

/-- The client thread's steps. -/
def connect (traffic : RequestTraffic) (thread : Nat) (path : List UInt8) : Option RequestTraffic :=
  match traffic.threads thread, traffic.daemon.sockets path with
  | .calling call request, some socket =>
    some { (traffic.setConnection call ⟨request, [], [], .queued⟩).setThread thread (.connected call request) with
      backlog := Function.update traffic.backlog socket (traffic.backlog socket ++ [call]) }
  | _, _ => none

def send (traffic : RequestTraffic) (thread : Nat) (padding : List UInt8) (count : Nat) :
    Option RequestTraffic :=
  match traffic.threads thread with
  | .connected call request =>
    (traffic.connections call).map fun connection =>
      (traffic.setConnection call { connection with
        toDaemon := connection.toDaemon ++ (NetlinkRequest.layout.encode request padding).take count }).setThread
          thread (.waiting call request)
  | _ => none

def receive (traffic : RequestTraffic) (thread count : Nat) : Option RequestTraffic :=
  match traffic.threads thread with
  | .waiting call request =>
    (traffic.connections call).bind fun connection =>
      if 0 < count ∧ count ≤ connection.toClient.length ∧ count ≤ NetlinkResponse.layout.size then
        match NetlinkClient.requestResponse (.bytes (connection.toClient.take count)) with
        | .ok response => some { traffic.setThread thread .idle with
            returned := traffic.returned ++ [⟨call, request, response.1⟩] }
        | .error _ => some (traffic.setThread thread .idle)
      else none
  | _ => none

/-- The worker's steps. -/
def accept (traffic : RequestTraffic) (pid : Int32) : Option RequestTraffic :=
  (traffic.serverSocket pid).bind fun socket =>
    match traffic.worker socket, traffic.backlog socket with
    | none, call :: rest =>
      match traffic.connections call with
      | some ⟨request, toDaemon, toClient, .queued⟩ =>
        some { (traffic.setConnection call ⟨request, toDaemon, toClient, .accepted⟩).setWorker socket (some call) with
          backlog := Function.update traffic.backlog socket rest }
      | _ => none
    | _, _ => none

def close (traffic : RequestTraffic) (socket call : Nat) (connection : Connection) : RequestTraffic :=
  (traffic.setConnection call { connection with stage := .closed }).setWorker socket none

def read (traffic : RequestTraffic) (pid : Int32) (count : Nat) : Option RequestTraffic :=
  (traffic.inHand pid).bind fun (socket, call, connection) =>
    match connection.stage with
    | .accepted =>
      if 0 < count ∧ count ≤ connection.toDaemon.length ∧ count ≤ NetlinkRequest.size then
        match (Received.bytes (connection.toDaemon.take count)).request with
        | none => some (traffic.close socket call connection)
        | some request =>
          (traffic.daemon.serveRequest pid).map fun daemon =>
            { traffic.setConnection call { connection with
                toDaemon := connection.toDaemon.drop count
                stage := .received request } with daemon }
      else none
    | _ => none

/-- libnl's codes are of type `int`. -/
def process (texts : ErrorTexts) (traffic : RequestTraffic) (pid : Int32) (after : List UInt8)
    (faults : RequestFaults) : Option RequestTraffic :=
  (traffic.inHand pid).bind fun (_, call, connection) =>
    match connection.stage with
    | .received request =>
      let handled := traffic.manager.processRequest texts request after faults
      if h : ByteStream.IsInt handled.1.result then
        some { traffic.setConnection call { connection with stage := .processed ⟨handled.1, h⟩ } with
          manager := handled.2
          handed := traffic.handed ++ [⟨call, request, handled.1⟩] }
      else none
    | _ => none

def respond (traffic : RequestTraffic) (pid : Int32) (padding : List UInt8) (count : Nat) :
    Option RequestTraffic :=
  (traffic.inHand pid).bind fun (socket, call, connection) =>
    match connection.stage with
    | .processed response =>
      some (traffic.close socket call { connection with
        toClient := connection.toClient ++ (NetlinkResponse.layout.encode response padding).take count })
    | _ => none

def step (texts : ErrorTexts) (traffic : RequestTraffic) : Action → Option RequestTraffic
  | .daemon action =>
    match action with
    | .serve _ => none
    | _ => (traffic.daemon.step action).bind fun daemon =>
      if traffic.workersJoined daemon then some { traffic with daemon } else none
  | .call thread request =>
    match traffic.threads thread with
    | .idle => some { traffic.setThread thread (.calling traffic.nextCall request) with
        nextCall := traffic.nextCall + 1 }
    | _ => none
  | .connect thread path => traffic.connect thread path
  | .send thread padding count => traffic.send thread padding count
  | .receive thread count => traffic.receive thread count
  | .fail thread =>
    match traffic.threads thread with
    | .idle => none
    | _ => some (traffic.setThread thread .idle)
  | .accept pid => traffic.accept pid
  | .read pid count => traffic.read pid count
  | .process pid after faults => traffic.process texts pid after faults
  | .respond pid padding count => traffic.respond pid padding count
  | .giveUp pid =>
    (traffic.inHand pid).map fun (socket, call, connection) => traffic.close socket call connection

def machine (texts : ErrorTexts) : Machine RequestTraffic Action := ⟨step texts⟩

def start (manager : NetlinkManager) : RequestTraffic where
  daemon := .init
  manager := manager
  nextCall := 0
  threads := fun _ => .idle
  connections := fun _ => none
  backlog := fun _ => []
  worker := fun _ => none
  handed := []
  returned := []

end RequestTraffic
end HyCAN
